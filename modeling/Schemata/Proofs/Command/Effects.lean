import Schemata.Command.Project
import Schemata.Proofs.File.Walks
/-!
# Actions on file trees

What an action gives on a file tree, and what becomes of the tree. A text that is written changes
one file or none. All else that commands do only reads, which holds of an action if it holds of its
steps.
-/

namespace Schemata

variable {ε ε' α β : Type} {t t' : FileTree} {x : ExceptT ε (StateM FileTree) α} {path text : String}

namespace FileTree

/-- What an action gives on a file tree, and the tree that it leaves behind. -/
def perform (t : FileTree) (x : ExceptT ε (StateM FileTree) α) : Except ε α × FileTree :=
  x.run t

theorem perform_pure (t : FileTree) (a : α) :
    t.perform (pure a : ExceptT ε (StateM FileTree) α) = (.ok a, t) := rfl

theorem perform_throw (t : FileTree) (e : ε) :
    t.perform (throw e : ExceptT ε (StateM FileTree) α) = (.error e, t) := rfl

theorem perform_bind (t : FileTree) (x : ExceptT ε (StateM FileTree) α)
    (f : α → ExceptT ε (StateM FileTree) β) :
    t.perform (x >>= f) =
      match t.perform x with
      | (.ok a, t') => t'.perform (f a)
      | (.error e, t') => (.error e, t') := by
  unfold perform
  rw [ExceptT.run_bind]
  rcases hx : x.run t with ⟨r, t'⟩
  simp only [bind, StateT.bind, hx]
  cases r <;> rfl

theorem perform_adapt (t : FileTree) (x : ExceptT ε (StateM FileTree) α) (f : ε → ε') :
    t.perform (x.adapt f) = ((t.perform x).1.mapError f, (t.perform x).2) := rfl

theorem perform_lift (t : FileTree) (x : StateM FileTree α) :
    t.perform (ExceptT.lift x : ExceptT ε (StateM FileTree) α) = (.ok (x t).1, (x t).2) := rfl

theorem perform_pathExists (t : FileTree) (path : String) :
    t.perform (Files.pathExists path : ExceptT ε (StateM FileTree) Bool) =
      (.ok (t.pathExists path), t) := rfl

theorem perform_createDirectories (t : FileTree) (path : String) :
    t.perform (Files.createDirectories path : ExceptT ε (StateM FileTree) (Except FileCause Unit)) =
      (.ok (t.createDirectories path).1, (t.createDirectories path).2) := rfl

/-- A file is written, or nothing happens. -/
theorem perform_writeFile (t : FileTree) (path text : String) :
    t.perform (Project.writeFile path text) =
      match t.write path (.text text) with
      | .ok t' => (.ok (), t')
      | .error cause => (.error (.unwritable path cause), t) := by
  have hwrite : t.perform (Files.writeText path text : ExceptT FileError (StateM FileTree) _) =
      match t.write path (.text text) with
      | .ok t' => (.ok (.ok ()), t')
      | .error cause => (.ok (.error cause), t) := by
    simp only [Files.writeText]
    rw [perform_lift]
    cases t.write path (.text text) <;> rfl
  rw [Project.writeFile, perform_bind, hwrite]
  cases t.write path (.text text) <;> rfl

end FileTree

/-- Whether a failure tells that the file at a path could not be written. -/
def Failure.IsUnwritable (path : String) (e : Failure) : Prop :=
  ∃ cause, e = .file (.unwritable path cause)

namespace FileTree

/-- What can come of writing a text to a path: the file there holds it, or there is a failure of the
kind that is expected. No other file changes, and in the second case none at all. -/
def WrittenOrNot (t : FileTree) (path text : String) (fails : Failure → Prop) :
    Except Failure α × FileTree → Prop
  | (.ok _, t') => t.Written path text t'
  | (.error e, t') => fails e ∧ t.MoreDirectories t'

/-- A file is written, or not, in a tree to which directories have been added. -/
theorem writtenOrNot_writeFile (hmore : t.MoreDirectories t') (path text : String) :
    t.WrittenOrNot path text (Failure.IsUnwritable path)
      (t'.perform ((Project.writeFile path text).adapt .file)) := by
  rw [perform_adapt, perform_writeFile]
  cases hwrite : t'.write path (.text text) with
  | error cause => exact ⟨⟨cause, rfl⟩, hmore⟩
  | ok t'' => exact (written_of_write hwrite).of_moreDirectories hmore

theorem WrittenOrNot.imp {fails fails' : Failure → Prop} {outcome : Except Failure α × FileTree}
    (h : t.WrittenOrNot path text fails outcome) (himp : ∀ e, fails e → fails' e) :
    t.WrittenOrNot path text fails' outcome := by
  rcases outcome with ⟨r, t'⟩
  cases r with
  | ok a => exact h
  | error e => exact ⟨himp e h.1, h.2⟩

/-- What is told afterwards changes no file. -/
theorem WrittenOrNot.bind_pure {fails : Failure → Prop} {x : Action (StateM FileTree) α}
    (h : t.WrittenOrNot path text fails (t'.perform x)) (b : β) :
    t.WrittenOrNot path text fails (t'.perform (x >>= fun _ => pure b)) := by
  rw [perform_bind]
  rcases hx : t'.perform x with ⟨r, t''⟩
  rw [hx] at h
  cases r <;> exact h

end FileTree

/-- Whether an action leaves all trees as they are. -/
def ReadsOnly (x : ExceptT ε (StateM FileTree) α) : Prop :=
  ∀ t : FileTree, (t.perform x).2 = t

namespace ReadsOnly

theorem perform_eq (hx : ReadsOnly x) (t : FileTree) : t.perform x = ((t.perform x).1, t) :=
  Prod.ext rfl (hx t)

theorem pure (a : α) : ReadsOnly (pure a : ExceptT ε (StateM FileTree) α) := fun _ => rfl

theorem throw (e : ε) : ReadsOnly (throw e : ExceptT ε (StateM FileTree) α) := fun _ => rfl

theorem bind {f : α → ExceptT ε (StateM FileTree) β} (hx : ReadsOnly x)
    (hf : ∀ a, ReadsOnly (f a)) : ReadsOnly (x >>= f) := by
  intro t
  rw [FileTree.perform_bind, hx.perform_eq]
  cases (t.perform x).1 with
  | ok a => exact hf a t
  | error e => rfl

theorem adapt (hx : ReadsOnly x) (f : ε → ε') : ReadsOnly (x.adapt f) := hx

end ReadsOnly

namespace Project

theorem readsOnly_readFile (path : String) :
    ReadsOnly (readFile path : ExceptT FileError (StateM FileTree) String) := by
  unfold readFile
  apply ReadsOnly.bind (fun _ => rfl)
  intro present
  split
  · apply ReadsOnly.bind (fun _ => rfl)
    intro result
    cases result with
    | ok text => exact .pure text
    | error cause => exact .throw _
  · exact .throw _

theorem readsOnly_readConfig (path : String) :
    ReadsOnly (readConfig path : ExceptT ConfigError (StateM FileTree) Config) := by
  unfold readConfig
  apply ReadsOnly.bind
  · exact (readsOnly_readFile path).adapt _
  · intro text
    split
    · exact .throw _
    · split
      · exact .throw _
      · exact .pure _

theorem readsOnly_load (s : Setting) : ReadsOnly (load s : Action (StateM FileTree) Project) := by
  unfold load
  apply ReadsOnly.bind (fun _ => rfl)
  intro present
  split
  · apply ReadsOnly.bind
    · exact (readsOnly_readConfig _).adapt _
    · intro config
      exact .pure _
  · split
    · exact .throw _
    · exact .pure _

theorem directory_of_load {s : Setting} {p : Project} (h : (t.perform (load s)).1 = .ok p) :
    p.directory = s.directory := by
  unfold load at h
  rw [FileTree.perform_bind, FileTree.perform_pathExists] at h
  dsimp only at h
  split at h
  · rw [FileTree.perform_bind] at h
    split at h
    · cases h
      rfl
    · cases h
  · split at h
    · cases h
    · cases h
      rfl

theorem readsOnly_readGraph (path : String) :
    ReadsOnly (readGraph path : Action (StateM FileTree) Graph) := by
  unfold readGraph
  apply ReadsOnly.bind
  · exact (readsOnly_readFile path).adapt _
  · intro text
    split
    · exact .pure _
    · exact .throw _

theorem readsOnly_readSchema (p : Project) (input : Option String) :
    ReadsOnly (p.readSchema input : Action (StateM FileTree) Schema) := by
  unfold readSchema
  apply ReadsOnly.bind
  · exact readsOnly_readGraph _
  · intro g
    split
    · exact .pure _
    · exact .throw _

end Project
end Schemata
