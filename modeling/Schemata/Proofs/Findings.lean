import Schemata.Proofs.References
/-!
# What a report lists

The errors of a report are the violations in a schema, each once: model by model its enum columns,
its indexes and the relations that it declares. `validate_lists_violations` says which these are,
and how many.
-/

namespace Schemata

namespace Model

/-- Whether no column of a model has a name in storage. -/
def Lacks (m : Model) (field : String) : Prop := ∀ c ∈ m.columns, c.canonicalName ≠ field

instance (m : Model) : DecidablePred m.Lacks := fun _ => inferInstanceAs (Decidable (∀ _ ∈ _, _))

/-- The relations to one row that a model sees as their source. -/
def outgoing (m : Model) : List OneRelation :=
  m.relations.filterMap fun
    | .one r => if r.direction = .out then some r else none
    | .many _ => none

end Model

namespace OneRelation

/-- Whether a relation uses no columns on either side. -/
def Keyless (r : OneRelation) : Prop := r.sourceFields = [] ∧ r.referenceFields = []

instance (r : OneRelation) : Decidable r.Keyless := inferInstanceAs (Decidable (_ ∧ _))

/-- Whether a relation does not use as many columns on one side as on the other. -/
def Uneven (r : OneRelation) : Prop :=
  ¬r.Keyless ∧ r.sourceFields.length ≠ r.referenceFields.length

instance (r : OneRelation) : Decidable r.Uneven := inferInstanceAs (Decidable (_ ∧ _))

end OneRelation

namespace Schema

/-- Whether a column holds an enum, but the schema has none of its name. -/
def LacksEnum (s : Schema) (c : Column) : Prop :=
  c.type = .enum ∧ ∀ e ∈ s.enums, c.enumName ≠ some e.canonicalName

instance (s : Schema) : DecidablePred s.LacksEnum := fun _ => inferInstanceAs (Decidable (_ ∧ _))

/-- What is wrong with a relation: its lengths, its own columns, and then its reference model or
the columns of that. -/
def relationFindings (s : Schema) (m : Model) (r : OneRelation) : List Finding :=
  if r.Keyless then []
  else
    (if r.sourceFields.length = r.referenceFields.length then [] else [unequalLengths m r]) ++
      (r.sourceFields.filter (m.Lacks ·)).map (unknownRelationField m r m.canonicalName) ++
      match s.model? r.referenceModel with
      | none => [unknownModel m r]
      | some reference =>
        (r.referenceFields.filter (reference.Lacks ·)).map
          (unknownRelationField m r reference.canonicalName)

/-- What is wrong with a model. -/
def modelFindings (s : Schema) (m : Model) : List Finding :=
  (m.columns.filter (s.LacksEnum ·)).map (unknownEnum m) ++
    (m.indexes.flatMap fun i => (i.fields.filter (m.Lacks ·)).map (unknownIndexField m i)) ++
    m.outgoing.flatMap (s.relationFindings m)

/-- How many violations there are in a relation. -/
def relationViolations (s : Schema) (m : Model) (r : OneRelation) : Nat :=
  if r.Keyless then 0
  else
    (if r.sourceFields.length = r.referenceFields.length then 0 else 1) +
      r.sourceFields.countP (m.Lacks ·) +
      match s.model? r.referenceModel with
      | none => 1
      | some reference => r.referenceFields.countP (reference.Lacks ·)

/-- How many violations there are in a model. -/
def modelViolations (s : Schema) (m : Model) : Nat :=
  m.columns.countP (s.LacksEnum ·) + (m.indexes.map fun i => i.fields.countP (m.Lacks ·)).sum +
    (m.outgoing.map (s.relationViolations m)).sum

theorem enumErrors_eq (s : Schema) (m : Model) :
    s.enumErrors m = (m.columns.filter (s.LacksEnum ·)).map (unknownEnum m) := by
  rw [enumErrors]
  congr 1
  refine List.filter_congr fun c _ => ?_
  have hknows : s.knowsEnumOf c = true ↔ ∃ e ∈ s.enums, c.enumName = some e.canonicalName := by
    simp only [knowsEnumOf, enum?, Option.any_eq_true, List.find?_isSome, beq_iff_eq]
    constructor
    · rintro ⟨name, hname, e, he, rfl⟩
      exact ⟨e, he, hname⟩
    · rintro ⟨e, he, hname⟩
      exact ⟨_, hname, e, he, rfl⟩
  rw [Bool.eq_iff_iff, Bool.and_eq_true, decide_eq_true_iff, Bool.not_eq_true', ← Bool.not_eq_true,
    hknows, decide_eq_true_iff, LacksEnum]
  simp only [not_exists, not_and, ne_eq]

theorem missingFields_eq (m : Model) (fields : List String) :
    missingFields m fields = fields.filter (m.Lacks ·) := by
  refine List.filter_congr fun f _ => ?_
  rw [Bool.eq_iff_iff, decide_eq_true_iff, Option.isNone_iff_eq_none, Model.columnNamed?,
    List.find?_eq_none]
  simp only [Model.Lacks, beq_iff_eq, ne_eq]

theorem declaredOnes_eq (m : Model) : declaredOnes m = m.outgoing := by
  rw [declaredOnes, Model.relationsIn, List.filterMap_filter, Model.outgoing]
  refine List.filterMap_congr fun r _ => ?_
  cases r with
  | one r => by_cases h : r.direction = .out <;> simp [Relation.direction, h]
  | many r => exact ite_self none

theorem relationReport_of_keyless (s : Schema) (m : Model) {r : OneRelation} (h : r.Keyless) :
    s.relationReport m r = ⟨[], [noFields m r]⟩ := by
  rw [relationReport, h.1, h.2]
  rfl

theorem relationReport_of_not_keyless (s : Schema) (m : Model) {r : OneRelation}
    (h : ¬r.Keyless) : s.relationReport m r = .ofErrors (s.relationFindings m r) := by
  have hsome : ¬(r.sourceFields.isEmpty && r.referenceFields.isEmpty) = true := by
    simpa only [Bool.and_eq_true, List.isEmpty_iff, OneRelation.Keyless] using h
  rw [relationReport, if_neg hsome, relationFindings, if_neg h]
  simp only [unknownFields, missingFields_eq]
  cases s.model? r.referenceModel <;> rfl

theorem errors_relationReport (s : Schema) (m : Model) (r : OneRelation) :
    (s.relationReport m r).errors = s.relationFindings m r := by
  by_cases h : r.Keyless
  · rw [relationReport_of_keyless s m h, relationFindings, if_pos h]
  · rw [relationReport_of_not_keyless s m h, Report.ofErrors]

theorem warnings_relationReport (s : Schema) (m : Model) (r : OneRelation) :
    (s.relationReport m r).warnings = if r.Keyless then [noFields m r] else [] := by
  by_cases h : r.Keyless
  · rw [relationReport_of_keyless s m h, if_pos h]
  · rw [relationReport_of_not_keyless s m h, if_neg h, Report.ofErrors]

theorem errors_modelReport_eq (s : Schema) (m : Model) :
    (s.modelReport m).errors = s.modelFindings m := by
  simp only [errors_modelReport, enumErrors_eq, indexErrors, missingFields_eq, declaredOnes_eq,
    errors_relationReport, modelFindings]

theorem length_relationFindings (s : Schema) (m : Model) (r : OneRelation) :
    (s.relationFindings m r).length = s.relationViolations m r := by
  rw [relationFindings, relationViolations]
  split
  · rfl
  · rw [List.length_append, List.length_append, List.length_map, ← List.countP_eq_length_filter]
    congr 1
    · split <;> rfl
    · cases s.model? r.referenceModel with
      | none => rfl
      | some reference => rw [List.length_map, ← List.countP_eq_length_filter]

theorem length_modelFindings (s : Schema) (m : Model) :
    (s.modelFindings m).length = s.modelViolations m := by
  simp only [modelFindings, List.length_append, List.length_map, List.length_flatMap,
    ← List.countP_eq_length_filter, length_relationFindings, modelViolations]

theorem filter_constraint_map {α : Type} {f : α → Finding} (hf : ∀ a, (f a).kind = .reference)
    (as : List α) : (as.map f).filter (·.kind = .constraint) = [] := by
  simp only [List.filter_map, Function.comp_def, hf, reduceCtorEq, decide_false, List.filter_false,
    List.map_nil]

/-- Of the findings of a relation only that of unequal lengths is a matter of constraints. -/
theorem filter_constraint_relationFindings (s : Schema) (m : Model) (r : OneRelation) :
    (s.relationFindings m r).filter (·.kind = .constraint) =
      if r.Uneven then [unequalLengths m r] else [] := by
  rw [relationFindings]
  by_cases hkeyless : r.Keyless
  · rw [if_pos hkeyless, if_neg fun h => h.1 hkeyless, List.filter_nil]
  · -- So is what is wrong with the other side.
    have hreferences : List.filter (·.kind = .constraint)
        (match s.model? r.referenceModel with
          | none => [unknownModel m r]
          | some reference =>
            (r.referenceFields.filter (reference.Lacks ·)).map
              (unknownRelationField m r reference.canonicalName)) = [] := by
      cases s.model? r.referenceModel with
      | none => rfl
      | some reference => exact filter_constraint_map (fun _ => rfl) _
    rw [if_neg hkeyless, List.filter_append, List.filter_append,
      filter_constraint_map (fun _ => rfl), hreferences, List.append_nil, List.append_nil]
    by_cases hlengths : r.sourceFields.length = r.referenceFields.length
    · rw [if_pos hlengths, if_neg fun h => h.2 hlengths, List.filter_nil]
    · rw [if_neg hlengths, if_pos ⟨hkeyless, hlengths⟩]
      rfl

/-- Findings that come one to each element of some kind. -/
theorem flatMap_ite_singleton {α β : Type} (p : α → Prop) [DecidablePred p] (f : α → β)
    (as : List α) :
    (as.flatMap fun a => if p a then [f a] else []) = (as.filter (p ·)).map f := by
  induction as with
  | nil => rfl
  | cons a as ih =>
    rw [List.flatMap_cons, ih, List.filter_cons]
    by_cases h : p a
    · rw [if_pos h, if_pos (decide_eq_true h), List.map_cons, List.singleton_append]
    · rw [if_neg h, if_neg (by simpa only [decide_eq_true_iff] using h), List.nil_append]

theorem filter_constraint_modelFindings (s : Schema) (m : Model) :
    (s.modelFindings m).filter (·.kind = .constraint) =
      (m.outgoing.filter (·.Uneven)).map (unequalLengths m) := by
  -- What is wrong with enum columns and indexes are references.
  have hindexes : (m.indexes.flatMap fun i =>
      (i.fields.filter (m.Lacks ·)).map (unknownIndexField m i)).filter
        (·.kind = .constraint) = [] := by
    rw [List.filter_flatMap, List.flatMap_eq_nil_iff]
    exact fun i _ => filter_constraint_map (fun _ => rfl) _
  rw [modelFindings, List.filter_append, List.filter_append, filter_constraint_map (fun _ => rfl),
    hindexes, List.filter_flatMap, List.nil_append, List.nil_append, ← flatMap_ite_singleton]
  simp only [filter_constraint_relationFindings]

end Schema
end Schemata
