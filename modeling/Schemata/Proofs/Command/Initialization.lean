import Schemata.Command.Init
import Schemata.Proofs.Command.Effects
/-!
# What initialization leaves behind

Initialization writes the configuration first and then an example of a snapshot, unless there is a
snapshot. It does not take the one back if it fails at the other (`not_unchanged_of_error`), and that
is the only way in which it can fail and change a file (`initialized_or_unchanged_or_configured`).
-/

namespace Schemata.Init

open FileTree (Spot)

variable {directory path text : String} {t t' : FileTree} {spot other : Spot}

def configPath (directory : String) : String := Path.join directory Program.current.configFile

def graphPath (directory : String) : String := Path.join directory Program.current.graphFile

theorem head?_of_find_configPath (h : t.find (configPath directory) = .ok spot) :
    spot.head? = some ".tessera.yaml".toList := by
  have hrelative : Path.isAbsolute Program.current.configFile = false := rfl
  obtain ⟨front, hpath⟩ := Path.segments_join hrelative directory
  exact FileTree.head?_of_find hpath (by decide) h

theorem head?_of_find_graphPath (h : t.find (graphPath directory) = .ok spot) :
    spot.head? = some "graph.yaml".toList := by
  have hrelative : Path.isAbsolute Program.current.graphFile = false := rfl
  obtain ⟨front, hpath⟩ := Path.segments_join hrelative directory
  have hname : Path.segments (graphPath directory).toList =
      (front ++ ["schema".toList]) ++ ["graph.yaml".toList] := by
    rw [List.append_assoc]
    exact hpath
  exact FileTree.head?_of_find hname (by decide) h

/-- The configuration and the snapshot are two files, wherever the directory may lead. -/
theorem spots_ne (hconfig : t.find (configPath directory) = .ok spot)
    (hgraph : t'.find (graphPath directory) = .ok other) : other ≠ spot := by
  intro hsame
  have hname := head?_of_find_graphPath hgraph
  rw [hsame, head?_of_find_configPath hconfig] at hname
  revert hname
  decide

/-- The snapshot is found where it was, or not at all, after the configuration has been written. -/
theorem find_graphPath_of_write
    (hwrite : t.write (configPath directory) (.text text) = .ok t') :
    t'.find (graphPath directory) = .ok other ↔ t.find (graphPath directory) = .ok other := by
  obtain ⟨spot, rfl, hgrows, hconfig, -⟩ := FileTree.write_eq_ok hwrite
  constructor
  · intro hgraph
    exact FileTree.find_of_find_put (spots_ne hconfig hgraph) hgraph
  · exact FileTree.find_of_grows hgrows

theorem pathExists_graphPath_of_write
    (hwrite : t.write (configPath directory) (.text text) = .ok t') :
    t'.pathExists (graphPath directory) = t.pathExists (graphPath directory) := by
  rw [Bool.eq_iff_iff, FileTree.pathExists_eq_true_iff, FileTree.pathExists_eq_true_iff]
  simp only [find_graphPath_of_write hwrite]

/-- Whether a failure tells that the directory of a path could not be made. -/
def NoDirectory (path : String) (e : Failure) : Prop :=
  ∃ parent cause, Path.parent? path = some parent ∧ e = .directory parent cause

theorem perform_provideGraph_of_exists (h : t.pathExists (graphPath directory) = true) :
    t.perform (provideGraph directory) =
      (.ok s!"Kept existing {Program.current.graphFile}\n", t) := by
  unfold provideGraph
  rw [← graphPath, FileTree.perform_bind, FileTree.perform_pathExists]
  dsimp only
  rw [if_pos h, FileTree.perform_pure]

/-- For a path to lie in, only directories are made. -/
theorem moreDirectories_createParent (t : FileTree) (path : String) :
    match t.perform (createParent path) with
    | (.ok _, t') => t.MoreDirectories t'
    | (.error e, t') => NoDirectory path e ∧ t.MoreDirectories t' := by
  unfold createParent
  cases hparent : Path.parent? path with
  | none => exact .refl t
  | some parent =>
    have hmore := t.moreDirectories_createDirectories parent
    dsimp only
    rw [FileTree.perform_bind, FileTree.perform_createDirectories]
    cases (t.createDirectories parent).1 with
    | ok _ => exact hmore
    | error cause => exact ⟨⟨parent, cause, hparent, rfl⟩, hmore⟩

theorem writtenOrNot_provideGraph (h : t.pathExists (graphPath directory) = false) :
    t.WrittenOrNot (graphPath directory) exampleGraph
      (fun e => e.IsUnwritable (graphPath directory) ∨ NoDirectory (graphPath directory) e)
      (t.perform (provideGraph directory)) := by
  have hparent := moreDirectories_createParent t (graphPath directory)
  unfold provideGraph
  rw [← graphPath, FileTree.perform_bind, FileTree.perform_pathExists]
  dsimp only
  rw [if_neg (Bool.eq_false_iff.mp h), FileTree.perform_bind]
  rcases houtcome : t.perform (createParent (graphPath directory)) with ⟨r, t₁⟩
  rw [houtcome] at hparent
  cases r with
  | error e => exact ⟨.inr hparent.1, hparent.2⟩
  | ok _ =>
    have hwritten := FileTree.writtenOrNot_writeFile hparent (graphPath directory) exampleGraph
    exact (hwritten.imp fun e he => .inl he).bind_pure _

/-- What a tree is like when a directory in it has been made a project. -/
structure Initialized (directory : String) (t t' : FileTree) : Prop where
  configured : t'.readText (configPath directory) = .ok Config.standard.toYaml
  kept : ∀ spot, t.find (graphPath directory) = .ok spot →
    t'.find (graphPath directory) = .ok spot ∧ t'.content? spot = t.content? spot
  provided : t.pathExists (graphPath directory) = false →
    t'.readText (graphPath directory) = .ok exampleGraph
  others : ∀ spot, t'.find (configPath directory) ≠ .ok spot →
    t'.find (graphPath directory) ≠ .ok spot → t'.content? spot = t.content? spot

theorem initialized_of_kept
    (hwrite : t.write (configPath directory) (.text Config.standard.toYaml) = .ok t')
    (hgraph : t.pathExists (graphPath directory) = true) : Initialized directory t t' := by
  have hwritten := FileTree.written_of_write hwrite
  obtain ⟨config, hconfig, -, hothers⟩ := hwritten.holds
  refine ⟨hwritten.readText, ?_, ?_, ?_⟩
  · intro spot hspot
    have hspot' := (find_graphPath_of_write hwrite).mpr hspot
    exact ⟨hspot', hothers spot (spots_ne hconfig hspot')⟩
  · intro habsent
    rw [hgraph] at habsent
    cases habsent
  · intro spot hspot _
    apply hothers
    rintro rfl
    exact hspot hconfig

theorem initialized_of_provided {t₁ : FileTree}
    (hwrite : t.write (configPath directory) (.text Config.standard.toYaml) = .ok t₁)
    (habsent : t.pathExists (graphPath directory) = false)
    (hprovided : t₁.Written (graphPath directory) exampleGraph t') :
    Initialized directory t t' := by
  obtain ⟨config, hconfig, htext, hconfigOthers⟩ := (FileTree.written_of_write hwrite).holds
  obtain ⟨graph, hgraph, -, hgraphOthers⟩ := hprovided.holds
  have hconfig' := FileTree.find_of_grows hprovided.grows hconfig
  refine ⟨?_, ?_, fun _ => hprovided.readText, ?_⟩
  · -- The configuration has been written before, and the snapshot is another file.
    apply FileTree.readText_of_find hconfig'
    rw [hgraphOthers config (spots_ne hconfig hgraph).symm, htext]
  · intro spot hspot
    have hthere := FileTree.pathExists_eq_true_iff.mpr ⟨spot, hspot⟩
    rw [habsent] at hthere
    cases hthere
  · intro spot hspotConfig hspotGraph
    have hne : spot ≠ config := fun hsame => hspotConfig (hsame ▸ hconfig')
    have hne' : spot ≠ graph := fun hsame => hspotGraph (hsame ▸ hgraph)
    rw [hgraphOthers spot hne', hconfigOthers spot hne]

/-- A directory that has a configuration is left alone. -/
theorem perform_run_of_configured (h : t.pathExists (configPath directory) = true) :
    t.perform (run directory false) = (.error .alreadyInitialized, t) := by
  unfold run
  rw [← configPath, FileTree.perform_bind, FileTree.perform_pathExists, h]
  rfl

/-- In a file system without links, initialization that succeeds leaves a project behind. If it
fails, all is as it was, unless the configuration has been written and the snapshot could not be:
then the configuration stays, and is in the way of the next attempt. -/
theorem initialized_or_unchanged_or_configured (directory : String) (force : Bool) (t : FileTree) :
    match t.perform (run directory force) with
    | (.ok _, t') => Initialized directory t t'
    | (.error e, t') =>
      (t' = t ∧
        (e = .alreadyInitialized ∧ force = false ∧ t.pathExists (configPath directory) = true ∨
          e.IsUnwritable (configPath directory))) ∨
      (t.Written (configPath directory) Config.standard.toYaml t' ∧
        t.pathExists (graphPath directory) = false ∧
        (e.IsUnwritable (graphPath directory) ∨ NoDirectory (graphPath directory) e) ∧
        t'.perform (run directory false) = (.error .alreadyInitialized, t')) := by
  unfold run
  rw [← configPath, FileTree.perform_bind, FileTree.perform_pathExists]
  dsimp only
  by_cases hgate : (t.pathExists (configPath directory) && !force) = true
  · rw [if_pos hgate, FileTree.perform_bind, FileTree.perform_throw]
    rw [Bool.and_eq_true, Bool.not_eq_true'] at hgate
    exact .inl ⟨rfl, .inl ⟨rfl, hgate.2, hgate.1⟩⟩
  · rw [if_neg hgate, FileTree.perform_bind, FileTree.perform_adapt, FileTree.perform_writeFile]
    cases hwrite : t.write (configPath directory) (.text Config.standard.toYaml) with
    | error cause => exact .inl ⟨rfl, .inr ⟨cause, rfl⟩⟩
    | ok t₁ =>
      -- The configuration is in nobody's way: there is a snapshot now if there was one before.
      have hsame := pathExists_graphPath_of_write hwrite
      dsimp only [Except.mapError]
      rw [FileTree.perform_bind]
      cases hgraph : t.pathExists (graphPath directory) with
      | true =>
        rw [perform_provideGraph_of_exists (hsame.trans hgraph)]
        exact initialized_of_kept hwrite hgraph
      | false =>
        have hprovided := writtenOrNot_provideGraph (hsame.trans hgraph)
        rcases houtcome : t₁.perform (provideGraph directory) with ⟨r, t'⟩
        rw [houtcome] at hprovided
        cases r with
        | ok told => exact initialized_of_provided hwrite hgraph hprovided
        | error e =>
          obtain ⟨hfails, hmore⟩ := hprovided
          have hleft := (FileTree.written_of_write hwrite).moreDirectories hmore
          exact .inr ⟨hleft, rfl, hfails, perform_run_of_configured hleft.pathExists⟩

example : ((⟨[(["project".toList], .directory)]⟩ : FileTree).perform
    (run "/project" false)).1.isOk = true := rfl

/-- A directory of a project in which a file is in the way of the snapshot. -/
def blocked : FileTree where
  entries := [
    (["project".toList], .directory),
    (["schema".toList, "project".toList], .file (.text "a file"))]

/-- A failure can leave a file that was not there. -/
theorem not_unchanged_of_error :
    ¬∀ (directory : String) (force : Bool) (t t' : FileTree) (e : Failure),
      t.perform (run directory force) = (.error e, t') → t.SameFiles t' := by
  intro hall
  have hfails : (blocked.perform (run "/project" false)).1 =
      .error (.directory "/project/schema" .alreadyExists) := rfl
  have hsame := hall "/project" false blocked _ _ (Prod.ext hfails rfl)
    [".tessera.yaml".toList, "project".toList]
  -- The configuration is there afterwards, and was not before.
  cases hsame

end Schemata.Init
