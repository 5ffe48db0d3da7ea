import Schemata.Proofs.File.Frames
/-!
# Where paths lead

A path that leads somewhere passes through directories only, so that it still leads there when the
tree has grown. A file that is written stands where its path leads from then on.
-/

namespace Schemata

namespace Path

theorem segments_ne_nil (cs : List Char) : segments cs ≠ [] := by
  fun_induction segments cs <;> simp

/-- A slash parts the segments in front of it from those behind it. -/
theorem segments_append_slash (front rest : List Char) :
    segments (front ++ '/' :: rest) = segments front ++ segments rest := by
  fun_induction segments front with
  | case1 => rfl
  | case2 cs ih => rw [List.cons_append, segments, ih, List.cons_append]
  | case3 c cs hslash hnil ih => exact absurd hnil (segments_ne_nil cs)
  | case4 c cs hslash segment rest' hcons ih =>
    rw [List.cons_append, segments, ih, hcons, List.cons_append, List.cons_append]
    exact hslash

/-- A path that is seen from a directory ends as it is written. -/
theorem segments_join {path : String} (h : isAbsolute path = false) (base : String) :
    ∃ front, segments (join base path).toList = front ++ segments path.toList := by
  rw [join, h, if_neg Bool.false_ne_true]
  by_cases hempty : base.isEmpty = true
  · rw [if_pos (.inl hempty), String.isEmpty_iff.mp hempty, String.empty_append]
    exact ⟨[], rfl⟩
  · by_cases hslash : base.toList.getLast? = some '/'
    · obtain ⟨front, hbase⟩ := List.getLast?_eq_some_iff.mp hslash
      rw [if_pos (.inr hslash), String.toList_append, hbase, List.append_assoc]
      exact ⟨segments front, segments_append_slash front path.toList⟩
    · rw [if_neg (not_or.mpr ⟨hempty, hslash⟩), String.toList_append, String.toList_append,
        List.append_assoc]
      exact ⟨segments base.toList, segments_append_slash base.toList path.toList⟩

end Path

namespace FileTree

variable {t t' t'' : FileTree} {spot parent last : Spot} {segment name : List Char}
  {front rest : List (List Char)} {path text : String}

/-- A walk goes on from a directory, and only to what is there. -/
theorem walk_cons_eq_ok_iff :
    t.walk spot (segment :: rest) = .ok last ↔
      t.entry? spot = some .directory ∧ byteCount segment ≤ nameLimit ∧
        (t.entry? (step spot segment)).isSome = true ∧
        t.walk (step spot segment) rest = .ok last := by
  rw [walk]
  cases t.entry? spot with
  | none => simp
  | some entry =>
    cases entry with
    | file content => simp
    | directory =>
      by_cases hlong : nameLimit < byteCount segment
      · simp [hlong, Nat.not_le_of_lt hlong]
      · by_cases hnext : (t.entry? (step spot segment)).isSome = true
        · simp [hlong, hnext, Nat.le_of_not_lt hlong]
        · simp [hlong, hnext]

theorem walk_append_eq_ok_iff :
    t.walk spot (front ++ rest) = .ok last ↔
      ∃ middle, t.walk spot front = .ok middle ∧ t.walk middle rest = .ok last := by
  induction front generalizing spot with
  | nil => simp [walk]
  | cons segment front ih =>
    rw [List.cons_append, walk_cons_eq_ok_iff, ih]
    simp only [walk_cons_eq_ok_iff]
    constructor
    · rintro ⟨hdirectory, hshort, hnext, middle, hfront, hrest⟩
      exact ⟨middle, ⟨hdirectory, hshort, hnext, hfront⟩, hrest⟩
    · rintro ⟨middle, ⟨hdirectory, hshort, hnext, hfront⟩, hrest⟩
      exact ⟨hdirectory, hshort, hnext, middle, hfront, hrest⟩

theorem walk_of_grows (hgrows : t.Grows t') {segments : List (List Char)}
    (h : t.walk spot segments = .ok last) : t'.walk spot segments = .ok last := by
  induction segments generalizing spot with
  | nil => exact h
  | cons segment rest ih =>
    obtain ⟨hdirectory, hshort, hnext, hrest⟩ := walk_cons_eq_ok_iff.mp h
    exact walk_cons_eq_ok_iff.mpr
      ⟨hgrows.directory _ hdirectory, hshort, hgrows.isSome _ hnext, ih hrest⟩

/-- A file that is put into a tree is only found by walks that end there. -/
theorem walk_of_walk_put {content : Content} {segments : List (List Char)}
    (hlast : last ≠ spot) {start : Spot}
    (h : (t.put spot (.file content)).walk start segments = .ok last) :
    t.walk start segments = .ok last := by
  induction segments generalizing start with
  | nil => exact h
  | cons segment rest ih =>
    obtain ⟨hdirectory, hshort, hnext, hrest⟩ := walk_cons_eq_ok_iff.mp h
    -- Nothing is found behind a file, so that neither end of this step is the file that was put.
    have hstart : t.entry? start = some .directory := by
      rcases entry?_put_cases t spot start (.file content) with hput | ⟨-, hput⟩
      · rwa [hput] at hdirectory
      · rw [hput] at hdirectory
        cases hdirectory
    have hstep : (t.entry? (step start segment)).isSome = true := by
      rcases entry?_put_cases t spot (step start segment) (.file content) with hput | ⟨hspot, hput⟩
      · rwa [hput] at hnext
      · cases rest with
        | nil =>
          cases hrest
          exact absurd hspot hlast
        | cons next rest =>
          have hfile := (walk_cons_eq_ok_iff.mp hrest).1
          rw [hput] at hfile
          cases hfile
    exact walk_cons_eq_ok_iff.mpr ⟨hstart, hshort, hstep, ih hrest⟩

theorem find_eq_ok_iff :
    t.find path = .ok spot ↔
      checkLength path = .ok () ∧ t.walk [] (Path.segments path.toList) = .ok spot := by
  unfold find
  cases checkLength path with
  | error cause => simp [bind, Except.bind]
  | ok _ => simp [bind, Except.bind]

theorem find_of_grows (hgrows : t.Grows t') (h : t.find path = .ok spot) :
    t'.find path = .ok spot := by
  obtain ⟨hlength, hwalk⟩ := find_eq_ok_iff.mp h
  exact find_eq_ok_iff.mpr ⟨hlength, walk_of_grows hgrows hwalk⟩

theorem find_of_find_put {content : Content} (hlast : last ≠ spot)
    (h : (t.put spot (.file content)).find path = .ok last) : t.find path = .ok last := by
  obtain ⟨hlength, hwalk⟩ := find_eq_ok_iff.mp h
  exact find_eq_ok_iff.mpr ⟨hlength, walk_of_walk_put hlast hwalk⟩

theorem pathExists_eq_true_iff :
    t.pathExists path = true ↔ ∃ spot, t.find path = .ok spot := by
  unfold pathExists
  cases t.find path <;> simp

theorem readText_of_find (hfind : t.find path = .ok spot)
    (hcontent : t.content? spot = some (.text text)) : t.readText path = .ok text := by
  have hentry := content?_eq_some_iff.mp hcontent
  simp [readText, hfind, hentry, bind, Except.bind, pure, Except.pure]

/-- Whether a segment is the name of something, and not a way to stay or to turn back. -/
def IsName (segment : List Char) : Prop :=
  Path.isIdle segment = false ∧ segment ≠ ['.', '.']

instance (segment : List Char) : Decidable (IsName segment) :=
  inferInstanceAs (Decidable (_ ∧ _))

theorem step_of_isName (h : IsName name) (spot : Spot) : step spot name = name :: spot := by
  rw [step, h.1, if_neg Bool.false_ne_true, if_neg h.2]

/-- What a path leads to goes by the name that the path ends in. -/
theorem head?_of_find (hpath : Path.segments path.toList = front ++ [name]) (hname : IsName name)
    (h : t.find path = .ok spot) : spot.head? = some name := by
  obtain ⟨-, hwalk⟩ := find_eq_ok_iff.mp h
  rw [hpath] at hwalk
  obtain ⟨parent, -, hstep⟩ := walk_append_eq_ok_iff.mp hwalk
  obtain ⟨-, -, -, hlast⟩ := walk_cons_eq_ok_iff.mp hstep
  cases hlast
  rw [step_of_isName hname, List.head?_cons]

/-- Of a path that does not end in slashes, all segments are kept. -/
theorem splitSlashes_of_not_trailing (h : (splitSlashes path).2 = false) :
    (splitSlashes path).1 = Path.segments path.toList := by
  unfold splitSlashes at h ⊢
  dsimp only at h ⊢
  have hlength := Nat.le_of_not_lt (of_decide_eq_false h)
  have hsuffix := List.dropWhile_suffix List.isEmpty (l := (Path.segments path.toList).reverse)
  rw [hsuffix.eq_of_length_le (by simpa using hlength), List.reverse_reverse]

theorem ne_nil_of_splitSlashes (h : (splitSlashes path).1 = front ++ [name]) : name ≠ [] := by
  intro hempty
  have hhead := List.head?_dropWhile_not List.isEmpty (Path.segments path.toList).reverse
  unfold splitSlashes at h
  dsimp only at h
  rw [List.reverse_eq_iff, List.reverse_concat] at h
  rw [h, hempty] at hhead
  simp at hhead

/-- The place that a path names: a directory that it leads through, and a name there. -/
structure Place (t : FileTree) (path : String) (parent : Spot) (name : List Char) : Prop where
  length : checkLength path = .ok ()
  isName : IsName name
  short : byteCount name ≤ nameLimit
  directory : t.entry? parent = some .directory
  walk : ∃ front, Path.segments path.toList = front ++ [name] ∧ t.walk [] front = .ok parent

theorem Place.of_grows (hgrows : t.Grows t') (h : t.Place path parent name) :
    t'.Place path parent name := by
  obtain ⟨front, hpath, hwalk⟩ := h.walk
  exact ⟨h.length, h.isName, h.short, hgrows.directory parent h.directory, front, hpath,
    walk_of_grows hgrows hwalk⟩

/-- What there is at the place that a path names is what the path leads to. -/
theorem Place.find (h : t.Place path parent name)
    (hthere : (t.entry? (name :: parent)).isSome = true) :
    t.find path = .ok (name :: parent) := by
  obtain ⟨front, hpath, hwalk⟩ := h.walk
  apply find_eq_ok_iff.mpr
  refine ⟨h.length, ?_⟩
  rw [hpath]
  apply walk_append_eq_ok_iff.mpr
  refine ⟨parent, hwalk, ?_⟩
  apply walk_cons_eq_ok_iff.mpr
  rw [step_of_isName h.isName]
  exact ⟨h.directory, h.short, hthere, rfl⟩

/-- The name at the end of a path stands in a directory that the rest of the path leads to. -/
theorem findParent_eq_ok (h : t.findParent path = .ok (parent, some name)) :
    checkLength path = .ok () ∧
      ∃ front, (splitSlashes path).1 = front ++ [name] ∧ t.walk [] front = .ok parent ∧
        t.entry? parent = some .directory ∧ name ≠ ['.'] ∧ name ≠ ['.', '.'] := by
  obtain ⟨_, hlength, h⟩ := bind_eq_ok h
  dsimp only at h
  cases hlast : (splitSlashes path).1.getLast? with
  | none =>
    rw [hlast] at h
    cases h
  | some last =>
    rw [hlast] at h
    obtain ⟨_, hwalk, h⟩ := bind_eq_ok h
    obtain ⟨front, hfront⟩ := List.getLast?_eq_some_iff.mp hlast
    split at h
    · next hdirectory =>
      split at h
      · cases h
      · next hdots =>
        cases h
        rw [hfront, List.dropLast_concat] at hwalk
        exact ⟨hlength, front, hfront, hwalk, hdirectory, not_or.mp hdots⟩
    · cases h

/-- A file is written at the place that its path names, and not in the place of a directory. -/
theorem target_eq_ok (h : t.target path = .ok spot) :
    t.entry? spot ≠ some .directory ∧
      ∃ parent name, spot = name :: parent ∧ t.Place path parent name := by
  obtain ⟨⟨parent, name?⟩, hparent, h⟩ := bind_eq_ok h
  cases name? with
  | none => cases h
  | some name =>
    obtain ⟨hlength, front, hfront, hwalk, hdirectory, hdot, hup⟩ := findParent_eq_ok hparent
    have hempty := ne_nil_of_splitSlashes hfront
    have hname : IsName name := ⟨by simp [Path.isIdle, hempty, hdot], hup⟩
    -- Slashes at the end, a name that is too long, and a directory in the way are refused.
    dsimp only at h
    split at h
    · cases h
    · next hslashes =>
      rw [splitSlashes_of_not_trailing (Bool.eq_false_iff.mpr hslashes)] at hfront
      split at h
      · cases h
      · split at h
        · cases h
        · next hlong hfree =>
          cases h
          exact ⟨hfree, parent, name, rfl, hlength, hname, Nat.le_of_not_lt hlong, hdirectory,
            front, hfront, hwalk⟩

/-- A tree in which a path leads to a file with a text. All other files hold what they held, and
nothing that was there is gone. -/
structure Written (t : FileTree) (path text : String) (t' : FileTree) : Prop where
  grows : t.Grows t'
  holds : ∃ spot, t'.find path = .ok spot ∧ t'.content? spot = some (.text text) ∧
    ∀ other, other ≠ spot → t'.content? other = t.content? other

/-- A file that has been written is found by its path, and nothing else was put into the tree. -/
theorem write_eq_ok (h : t.write path (.text text) = .ok t') :
    ∃ spot, t' = t.put spot (.file (.text text)) ∧ t.Grows t' ∧ t'.find path = .ok spot ∧
      t'.content? spot = some (.text text) := by
  obtain ⟨spot, htarget, hput⟩ := bind_eq_ok h
  cases hput
  obtain ⟨hfree, parent, name, rfl, hplace⟩ := target_eq_ok htarget
  have hgrows : t.Grows (t.put (name :: parent) (.file (.text text))) :=
    grows_put fun hthere => absurd hthere hfree
  have hself := entry?_put_self t name parent (.file (.text text))
  refine ⟨name :: parent, rfl, hgrows, ?_, content?_eq_some_iff.mpr hself⟩
  apply (hplace.of_grows hgrows).find
  rw [hself, Option.isSome_some]

theorem written_of_write (h : t.write path (.text text) = .ok t') : t.Written path text t' := by
  obtain ⟨spot, rfl, hgrows, hfind, hcontent⟩ := write_eq_ok h
  exact ⟨hgrows, spot, hfind, hcontent, fun other hother => content?_put_of_ne t hother _⟩

namespace Written

theorem pathExists (h : t.Written path text t') : t'.pathExists path = true := by
  obtain ⟨spot, hfind, -⟩ := h.holds
  exact pathExists_eq_true_iff.mpr ⟨spot, hfind⟩

theorem readText (h : t.Written path text t') : t'.readText path = .ok text := by
  obtain ⟨spot, hfind, hcontent, -⟩ := h.holds
  exact readText_of_find hfind hcontent

/-- Directories may be made before. -/
theorem of_moreDirectories (hmore : t.MoreDirectories t') (h : t'.Written path text t'') :
    t.Written path text t'' := by
  obtain ⟨spot, hfind, hcontent, hothers⟩ := h.holds
  refine ⟨hmore.grows.trans h.grows, spot, hfind, hcontent, ?_⟩
  intro other hother
  exact (hothers other hother).trans (hmore.same other)

/-- Directories may be made afterwards. -/
theorem moreDirectories (h : t.Written path text t') (hmore : t'.MoreDirectories t'') :
    t.Written path text t'' := by
  obtain ⟨spot, hfind, hcontent, hothers⟩ := h.holds
  refine ⟨h.grows.trans hmore.grows, spot, find_of_grows hmore.grows hfind, ?_, ?_⟩
  · rw [hmore.same spot, hcontent]
  · intro other hother
    exact (hmore.same other).trans (hothers other hother)

end Written
end FileTree
end Schemata
