import Schemata.File.Tree
import Schemata.Proofs.FirstFault
/-!
# What changes in a file tree

An entry that is put at a spot leaves all other spots alone. Making directories adds entries and
takes none away, and it leaves the files alone, whether it succeeds or not.
-/

namespace Schemata.FileTree

variable {t t' t'' : FileTree} {spot other : Spot} {entry : Entry} {path : String}

theorem entry?_cons (t : FileTree) (name : List Char) (parent : Spot) :
    t.entry? (name :: parent) = t.entries.lookup (name :: parent) := rfl

@[simp]
theorem entry?_put_self (t : FileTree) (name : List Char) (parent : Spot) (entry : Entry) :
    entry? (t.put (name :: parent) entry) (name :: parent) = some entry := by
  rw [entry?_cons, put, List.lookup_cons_self]

theorem lookup_filter_of_ne (entries : List (Spot × Entry)) (h : other ≠ spot) :
    (entries.filter fun e => e.1 ≠ spot).lookup other = entries.lookup other := by
  induction entries with
  | nil => rfl
  | cons e rest ih =>
    by_cases hspot : e.1 = spot
    · -- The entry is left out, and it is none that is looked for.
      have hother : (other == e.1) = false := by
        rw [hspot]
        exact beq_eq_false_iff_ne.mpr h
      rw [List.filter_cons_of_neg (by simpa using hspot), ih, List.lookup_cons, hother]
    · rw [List.filter_cons_of_pos (by simpa using hspot), List.lookup_cons, List.lookup_cons, ih]

theorem entry?_put_of_ne (t : FileTree) (h : other ≠ spot) (entry : Entry) :
    entry? (t.put spot entry) other = t.entry? other := by
  cases other with
  | nil => rfl
  | cons name parent =>
    have hother : ((name :: parent) == spot) = false := beq_eq_false_iff_ne.mpr h
    rw [entry?_cons, entry?_cons, put, List.lookup_cons, hother]
    exact lookup_filter_of_ne t.entries h

theorem content?_eq_some_iff {content : Content} :
    t.content? spot = some content ↔ t.entry? spot = some (.file content) := by
  unfold content?
  split
  · next hentry => simp [hentry]
  · next hfile =>
    constructor
    · intro h
      cases h
    · intro h
      exact absurd h (hfile content)

/-- What stands at a spot after an entry has been put somewhere. -/
theorem entry?_put_cases (t : FileTree) (spot other : Spot) (entry : Entry) :
    entry? (t.put spot entry) other = t.entry? other ∨
      other = spot ∧ entry? (t.put spot entry) other = some entry := by
  by_cases hspot : other = spot
  · cases other with
    | nil => exact .inl rfl
    | cons name parent =>
      subst hspot
      exact .inr ⟨rfl, entry?_put_self t name parent entry⟩
  · exact .inl (entry?_put_of_ne t hspot entry)

theorem content?_put_of_ne (t : FileTree) (h : other ≠ spot) (entry : Entry) :
    (t.put spot entry).content? other = t.content? other := by
  rw [content?, content?, entry?_put_of_ne t h]

/-- The files of two trees hold the same. -/
def SameFiles (t t' : FileTree) : Prop :=
  ∀ spot, t'.content? spot = t.content? spot

theorem SameFiles.refl (t : FileTree) : t.SameFiles t := fun _ => rfl

theorem SameFiles.trans (h : t.SameFiles t') (h' : t'.SameFiles t'') : t.SameFiles t'' :=
  fun spot => (h' spot).trans (h spot)

/-- What there is in a tree is there in another one, and directories are directories there. -/
structure Grows (t t' : FileTree) : Prop where
  isSome : ∀ spot, (t.entry? spot).isSome = true → (t'.entry? spot).isSome = true
  directory : ∀ spot, t.entry? spot = some .directory → t'.entry? spot = some .directory

theorem Grows.refl (t : FileTree) : t.Grows t := ⟨fun _ h => h, fun _ h => h⟩

theorem Grows.trans (h : t.Grows t') (h' : t'.Grows t'') : t.Grows t'' :=
  ⟨fun spot hspot => h'.isSome spot (h.isSome spot hspot),
    fun spot hspot => h'.directory spot (h.directory spot hspot)⟩

/-- A tree grows by all that is not put in the place of a directory. -/
theorem grows_put (h : t.entry? spot = some .directory → entry = .directory) :
    t.Grows (t.put spot entry) := by
  constructor
  · intro other hother
    rcases entry?_put_cases t spot other entry with hput | ⟨-, hput⟩
    · rwa [hput]
    · rw [hput, Option.isSome_some]
  · intro other hother
    rcases entry?_put_cases t spot other entry with hput | ⟨rfl, hput⟩
    · rwa [hput]
    · rw [hput, h hother]

/-- A tree to which nothing but directories have been added. -/
structure MoreDirectories (t t' : FileTree) : Prop where
  same : t.SameFiles t'
  grows : t.Grows t'

theorem MoreDirectories.refl (t : FileTree) : t.MoreDirectories t :=
  ⟨.refl t, .refl t⟩

theorem MoreDirectories.trans (h : t.MoreDirectories t') (h' : t'.MoreDirectories t'') :
    t.MoreDirectories t'' :=
  ⟨h.same.trans h'.same, h.grows.trans h'.grows⟩

/-- A directory where nothing was is no file that was changed. -/
theorem moreDirectories_put (h : t.entry? spot = none) :
    t.MoreDirectories (t.put spot .directory) := by
  refine ⟨?_, grows_put fun _ => rfl⟩
  intro other
  rcases entry?_put_cases t spot other .directory with hput | ⟨rfl, hput⟩
  · rw [content?, content?, hput]
  · rw [content?, content?, hput, h]

/-- A directory is made only where nothing is. -/
theorem exists_spot_of_createDirectory (h : t.createDirectory path = .ok t') :
    ∃ spot, t.entry? spot = none ∧ t' = t.put spot .directory := by
  obtain ⟨⟨parent, name⟩, -, h⟩ := bind_eq_ok h
  cases name with
  | none =>
    obtain ⟨_, -, hok⟩ := bind_eq_ok h
    cases hok
  | some name =>
    dsimp only at h
    split at h
    · cases h
    · split at h
      · cases h
      · next hfree =>
        cases h
        exact ⟨name :: parent, Option.not_isSome_iff_eq_none.mp hfree, rfl⟩

theorem moreDirectories_of_createDirectory (h : t.createDirectory path = .ok t') :
    t.MoreDirectories t' := by
  obtain ⟨spot, hnone, rfl⟩ := exists_spot_of_createDirectory h
  exact moreDirectories_put hnone

theorem moreDirectories_createAll (t : FileTree) (paths : List String) :
    t.MoreDirectories (t.createAll paths).2 := by
  induction paths with
  | nil => exact .refl t
  | cons path ancestors ih =>
    unfold createAll
    split
    · next hmade => exact moreDirectories_of_createDirectory hmade
    · split
      · -- The path is tried once more when there is something that it can be made in.
        cases hall : t.createAll ancestors with
        | mk result t₁ =>
          rw [hall] at ih
          cases result with
          | error cause => exact ih
          | ok _ =>
            dsimp only
            split
            · next hmade => exact ih.trans (moreDirectories_of_createDirectory hmade)
            · exact ih
      · exact .refl t

theorem moreDirectories_createDirectories (t : FileTree) (path : String) :
    t.MoreDirectories (t.createDirectories path).2 :=
  moreDirectories_createAll t (Path.ancestors path)

end Schemata.FileTree
