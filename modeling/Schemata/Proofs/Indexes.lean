import Schemata.Normalize.Indexes
import Schemata.Proofs.FirstFault
/-!
# Which indexes a table has

An index is accepted if it has columns, a kind that there is, or none, and no flag that says
otherwise than its kind. A table has the indexes of its declarations, each in its place, or is
refused with the first fault of the first declaration that has one
(`toIndexes_positionwise`).
-/

namespace Schemata

namespace IndexDeclaration

/-- The kinds that a declaration may name. -/
def kindNames : List String := ["unique", "normal", "index"]

/-- What is asked of the declaration of an index. -/
structure Acceptable (d : IndexDeclaration) : Prop where
  columns : d.columns ≠ []
  kind : ∀ kind, d.kind = some kind → kind ∈ kindNames
  flag : ∀ kind unique, d.kind = some kind → d.unique = some unique →
    (kind = "unique" ↔ unique = true)

/-- The index has the name and the columns of a declaration. It is unique by the kind that this
names, or else by its flag. -/
structure Describes (d : IndexDeclaration) (index : Index) : Prop where
  name : index.name = d.name
  fields : index.fields = d.columns
  unique : index.kind = .unique ↔ d.kind = some "unique" ∨ d.kind = none ∧ d.unique = some true

/-- What a declaration is refused with. Of several faults the first of these counts. -/
inductive Refused (table : String) (d : IndexDeclaration) : NormalizeError → Prop where
  | noColumns (columns : d.columns = []) :
      Refused table d (.ambiguousIndex table d.name "index has no columns")
  | unknownKind {kind : String} (columns : d.columns ≠ []) (named : d.kind = some kind)
      (unknown : kind ∉ kindNames) :
      Refused table d (.unsupportedIndexKind table d.name kind)
  | contradiction {kind : String} {unique : Bool} (columns : d.columns ≠ [])
      (named : d.kind = some kind) (known : kind ∈ kindNames) (flagged : d.unique = some unique)
      (contrary : ¬(kind = "unique" ↔ unique = true)) :
      Refused table d
        (.ambiguousIndex table d.name s!"kind '{kind}' contradicts unique flag {unique}")

variable {table : String} {d : IndexDeclaration}

theorem acceptable_or_refused (table : String) (d : IndexDeclaration) :
    d.Acceptable ∨ ∃ e, d.Refused table e := by
  -- The cases are split in the order in which the faults count.
  by_cases hcolumns : d.columns = []
  · exact .inr ⟨_, .noColumns hcolumns⟩
  cases hkind : d.kind with
  | none => exact .inl ⟨hcolumns, by simp [hkind], by simp [hkind]⟩
  | some kind =>
    by_cases hknown : kind ∈ kindNames
    · cases hunique : d.unique with
      | none => exact .inl ⟨hcolumns, by simpa [hkind] using hknown, by simp [hunique]⟩
      | some unique =>
        by_cases hagree : kind = "unique" ↔ unique = true
        · exact .inl
            ⟨hcolumns, by simpa [hkind] using hknown, by simpa [hkind, hunique] using hagree⟩
        · exact .inr ⟨_, .contradiction hcolumns hkind hknown hunique hagree⟩
    · exact .inr ⟨_, .unknownKind hcolumns hkind hknown⟩

@[simp]
theorem ofFlag_eq_unique_iff {unique : Bool} : ofFlag unique = .unique ↔ unique = true := by
  cases unique <;> decide

/-- A kind and a flag say the same, or they contradict each other. -/
theorem ofFlag_decide_eq_iff {kind : String} {unique : Bool} :
    ofFlag (decide (kind = "unique")) = ofFlag unique ↔ (kind = "unique" ↔ unique = true) := by
  cases unique <;> by_cases hkind : kind = "unique" <;> simp [ofFlag, hkind]

/-- Every kind that there is but `unique` is the normal one. -/
theorem namedKind_of_known {kind : String} (hkind : d.kind = some kind)
    (hknown : kind ∈ kindNames) :
    d.namedKind table = .ok (some (ofFlag (decide (kind = "unique")))) := by
  unfold namedKind
  simp only [hkind]
  by_cases hunique : kind = "unique"
  · rw [if_pos hunique, decide_eq_true hunique, ofFlag, if_pos rfl]
  · have hnormal : kind = "normal" ∨ kind = "index" := by
      simpa [kindNames, hunique] using hknown
    rw [if_neg hunique, if_pos hnormal, decide_eq_false hunique]
    rfl

theorem namedKind_of_unknown {kind : String} (hkind : d.kind = some kind)
    (hunknown : kind ∉ kindNames) :
    d.namedKind table = .error (.unsupportedIndexKind table d.name kind) := by
  obtain ⟨hunique, hnormal, hindex⟩ : kind ≠ "unique" ∧ kind ≠ "normal" ∧ kind ≠ "index" := by
    simpa [kindNames] using hunknown
  unfold namedKind
  simp only [hkind]
  rw [if_neg hunique, if_neg (not_or.mpr ⟨hnormal, hindex⟩)]

theorem namedKind_of_none (hkind : d.kind = none) : d.namedKind table = .ok none := by
  unfold namedKind
  simp only [hkind]

theorem Acceptable.exists_toIndex (h : d.Acceptable) (table : String) :
    ∃ index, d.toIndex table = .ok index ∧ d.Describes index := by
  unfold toIndex
  rw [if_neg (mt List.isEmpty_iff.mp h.columns)]
  cases hkind : d.kind with
  | none =>
    -- The flag alone decides, and its absence is a normal index.
    rw [namedKind_of_none hkind, ok_bind]
    cases hunique : d.unique with
    | none => exact ⟨_, rfl, rfl, rfl, by simp [hkind, hunique]⟩
    | some unique =>
      refine ⟨_, rfl, rfl, rfl, ?_⟩
      simp [hkind, hunique]
  | some kind =>
    rw [namedKind_of_known hkind (h.kind kind hkind), ok_bind]
    cases hunique : d.unique with
    | none =>
      refine ⟨_, rfl, rfl, rfl, ?_⟩
      simp [hkind]
    | some unique =>
      -- The flag repeats the kind, so the check for a contradiction passes.
      have hagree := ofFlag_decide_eq_iff.mpr (h.flag kind unique hkind hunique)
      refine ⟨_, if_pos hagree, rfl, rfl, ?_⟩
      simp [hkind]

theorem Refused.toIndex_eq {e : NormalizeError} (h : d.Refused table e) :
    d.toIndex table = .error e := by
  unfold toIndex
  cases h with
  | noColumns hcolumns => rw [if_pos (List.isEmpty_iff.mpr hcolumns)]
  | unknownKind hcolumns hkind hunknown =>
    rw [if_neg (mt List.isEmpty_iff.mp hcolumns), namedKind_of_unknown hkind hunknown]
    rfl
  | contradiction hcolumns hkind hknown hunique hcontrary =>
    rw [if_neg (mt List.isEmpty_iff.mp hcolumns), namedKind_of_known hkind hknown, ok_bind,
      hunique, hkind]
    exact if_neg (mt ofFlag_decide_eq_iff.mp hcontrary)

theorem Refused.not_acceptable {e : NormalizeError} (h : d.Refused table e) : ¬d.Acceptable := by
  intro hacceptable
  obtain ⟨index, hindex, -⟩ := hacceptable.exists_toIndex table
  rw [h.toIndex_eq] at hindex
  cases hindex

theorem exists_toIndex_iff : (∃ index, d.toIndex table = .ok index) ↔ d.Acceptable := by
  constructor
  · rintro ⟨index, hindex⟩
    obtain hacceptable | ⟨e, he⟩ := acceptable_or_refused table d
    · exact hacceptable
    · rw [he.toIndex_eq] at hindex
      cases hindex
  · intro h
    obtain ⟨index, hindex, -⟩ := h.exists_toIndex table
    exact ⟨index, hindex⟩

theorem describes_of_toIndex {index : Index} (h : d.toIndex table = .ok index) :
    d.Describes index := by
  obtain ⟨index', hindex, hdescribes⟩ := (exists_toIndex_iff.mp ⟨index, h⟩).exists_toIndex table
  rw [h] at hindex
  cases hindex
  exact hdescribes

theorem toIndex_eq_error_iff {e : NormalizeError} :
    d.toIndex table = .error e ↔ d.Refused table e := by
  constructor
  · intro h
    obtain hacceptable | ⟨e', he⟩ := acceptable_or_refused table d
    · obtain ⟨index, hindex, -⟩ := hacceptable.exists_toIndex table
      rw [h] at hindex
      cases hindex
    · have hsame := he.toIndex_eq
      rw [h] at hsame
      cases hsame
      exact he
  · exact Refused.toIndex_eq

end IndexDeclaration

namespace TableDeclaration

theorem toIndexes_of_none {t : TableDeclaration} (h : t.indexes = none) : t.toIndexes = .ok [] := by
  rw [toIndexes, h]
  rfl

theorem toIndexes_of_some {t : TableDeclaration} {ds : List IndexDeclaration}
    (h : t.indexes = some ds) : t.toIndexes = ds.mapM (IndexDeclaration.toIndex t.name) := by
  rw [toIndexes, h, Option.getD_some]

/-- A table has the indexes that its declarations describe, in their order, if all of these are
acceptable. Otherwise the first that is not is refused. -/
theorem toIndexes_positionwise (t : TableDeclaration) :
    (t.indexes = none → t.toIndexes = .ok []) ∧
      ∀ ds, t.indexes = some ds →
        ((∃ indexes, t.toIndexes = .ok indexes) ↔ ∀ d ∈ ds, d.Acceptable) ∧
          (∀ indexes, t.toIndexes = .ok indexes →
            List.Forall₂ IndexDeclaration.Describes ds indexes) ∧
          ∀ e, t.toIndexes = .error e ↔ ∃ before d after, ds = before ++ d :: after ∧
            (∀ b ∈ before, b.Acceptable) ∧ ¬d.Acceptable ∧ d.Refused t.name e := by
  refine ⟨toIndexes_of_none, fun ds hds => ?_⟩
  rw [toIndexes_of_some hds]
  refine ⟨?_, fun indexes h => ?_, fun e => ?_⟩
  · simp only [mapM_eq_firstFaultOr, firstFaultOr_eq_ok_iff, exists_and_left, exists_eq', and_true,
      List.filterMap_eq_nil_iff, fault?_eq_none_iff, IndexDeclaration.exists_toIndex_iff]
  · exact (mapM_eq_ok_iff.mp h).imp fun d index => IndexDeclaration.describes_of_toIndex
  · rw [mapM_eq_error_iff]
    simp only [IndexDeclaration.toIndex_eq_error_iff, IndexDeclaration.exists_toIndex_iff]
    constructor
    · rintro ⟨before, d, after, rfl, hrefused, hbefore⟩
      exact ⟨before, d, after, rfl, hbefore, hrefused.not_acceptable, hrefused⟩
    · rintro ⟨before, d, after, rfl, hbefore, -, hrefused⟩
      exact ⟨before, d, after, rfl, hrefused, hbefore⟩

/-- A table whose indexes are unique or not by their kinds, and one by its flag. -/
def bookings : TableDeclaration :=
  { TableDeclaration.ofName "Booking" with
    indexes := some [
      ⟨"by_room", ["room", "day"], none, some "unique"⟩,
      ⟨"by_guest", ["guest"], some false, some "index"⟩,
      ⟨"by_code", ["code"], some true, none⟩] }

/-- The second index has no columns and no kind that there is, the third contradicts itself. -/
def faultyBookings : TableDeclaration :=
  { TableDeclaration.ofName "Booking" with
    indexes := some [
      ⟨"by_room", ["room", "day"], some true, none⟩,
      ⟨"by_guest", [], some true, some "gist"⟩,
      ⟨"by_code", ["code"], some true, some "normal"⟩] }

theorem toIndexes_positionwise_bookings :
    (TableDeclaration.ofName "Booking").toIndexes = .ok [] ∧
      (∃ ds indexes, bookings.indexes = some ds ∧ bookings.toIndexes = .ok indexes ∧
        List.Forall₂ IndexDeclaration.Describes ds indexes ∧
        indexes.map (·.kind) = [.unique, .normal, .unique]) ∧
      faultyBookings.toIndexes =
        .error (.ambiguousIndex "Booking" "by_guest" "index has no columns") := by
  refine ⟨(toIndexes_positionwise _).1 rfl, ?_, ?_⟩
  · have haccepted := ((toIndexes_positionwise bookings).2 _ rfl).2.1 _ rfl
    exact ⟨_, _, rfl, rfl, haccepted, rfl⟩
  · have hfirst := ((toIndexes_positionwise faultyBookings).2 _ rfl).2.2
    refine (hfirst _).mpr ⟨[_], _, [_], rfl, ?_, fun h => h.columns rfl, .noColumns rfl⟩
    intro d hd
    rw [List.mem_singleton.mp hd]
    exact ⟨by decide, nofun, nofun⟩

end TableDeclaration
end Schemata
