import Mathlib.Algebra.BigOperators.Group.List.Basic
import Mathlib.Algebra.GroupWithZero.Nat
import Schemata.Proofs.Acceptance
/-!
# The two views of a relation

A relation stands on the model it starts from and, if it leads to one row, on the model it leads
to. Since no relation is resolved twice and all are resolved as their sources see them, turning
them around loses nothing: each view stands on its model exactly once, and on no other.
-/

namespace Schemata

namespace ResolvedRelations

/-- No relation twice, and all as their sources see them. -/
structure Declared (rs : ResolvedRelations) : Prop where
  nodup : rs.relations.Nodup
  outward : ∀ r ∈ rs.relations, r.direction = .out

theorem mem_attachedTo_iff {rs : ResolvedRelations} {name : String} {v : Relation} :
    v ∈ rs.attachedTo name ↔
      ∃ r ∈ rs.relations, v = r.withDirection .out ∧ r.sourceModel = name ∨
        v = r.withDirection .inbound ∧ r.isOne ∧ r.referenceModel = name := by
  simp only [attachedTo, List.mem_append, List.mem_map, List.mem_filter, Bool.and_eq_true,
    beq_iff_eq]
  constructor
  · rintro (⟨r, ⟨hr, hone, hname⟩, rfl⟩ | ⟨r, ⟨hr, hname⟩, rfl⟩)
    · exact ⟨r, hr, .inr ⟨rfl, hone, hname⟩⟩
    · exact ⟨r, hr, .inl ⟨rfl, hname⟩⟩
  · rintro ⟨r, hr, ⟨rfl, hname⟩ | ⟨rfl, hone, hname⟩⟩
    · exact .inr ⟨r, ⟨hr, hname⟩, rfl⟩
    · exact .inl ⟨r, ⟨hr, hone, hname⟩, rfl⟩

theorem attachedTo_inbound_first (rs : ResolvedRelations) (name : String) :
    ∃ ins outs, rs.attachedTo name = ins ++ outs ∧ (∀ v ∈ ins, v.direction = .inbound) ∧
      ∀ v ∈ outs, v.direction = .out := by
  refine ⟨_, _, rfl, fun v hv => ?_, fun v hv => ?_⟩
  · obtain ⟨r, -, rfl⟩ := List.mem_map.mp hv
    exact r.direction_withDirection .inbound
  · obtain ⟨r, -, rfl⟩ := List.mem_map.mp hv
    exact r.direction_withDirection .out

variable {rs : ResolvedRelations}

theorem Declared.withDirection_out (h : rs.Declared) {r : Relation} (hr : r ∈ rs.relations) :
    r.withDirection .out = r := by
  rw [← h.outward r hr, r.withDirection_direction]

/-- Turning relations around does not make two of them one. -/
theorem Declared.withDirection_inj (h : rs.Declared) {r s : Relation} (hr : r ∈ rs.relations)
    (hs : s ∈ rs.relations) (d : Direction) (heq : r.withDirection d = s.withDirection d) :
    r = s := by
  have hturned := congrArg (·.withDirection .out) heq
  simp only [Relation.withDirection_withDirection] at hturned
  rwa [h.withDirection_out hr, h.withDirection_out hs] at hturned

theorem Declared.nodup_map_withDirection (h : rs.Declared) (p : Relation → Bool) (d : Direction) :
    ((rs.relations.filter p).map (·.withDirection d)).Nodup := by
  refine List.Nodup.map_on (fun r hr s hs => ?_) (h.nodup.filter p)
  exact h.withDirection_inj (List.mem_filter.mp hr).1 (List.mem_filter.mp hs).1 d

theorem Declared.nodup_attachedTo (h : rs.Declared) (name : String) :
    (rs.attachedTo name).Nodup := by
  -- The two parts share nothing, since a view tells from which side it is taken.
  refine List.nodup_append.mpr
    ⟨h.nodup_map_withDirection _ _, h.nodup_map_withDirection _ _, fun v hv w hw heq => ?_⟩
  obtain ⟨r, -, rfl⟩ := List.mem_map.mp hv
  obtain ⟨s, -, rfl⟩ := List.mem_map.mp hw
  have hdirection := congrArg Relation.direction heq
  simp only [Relation.direction_withDirection, reduceCtorEq] at hdirection

theorem Declared.mem_attachedTo_out_iff (h : rs.Declared) {r : Relation} (hr : r ∈ rs.relations)
    (name : String) : r.withDirection .out ∈ rs.attachedTo name ↔ name = r.sourceModel := by
  rw [mem_attachedTo_iff]
  constructor
  · rintro ⟨s, hs, ⟨heq, rfl⟩ | ⟨heq, -⟩⟩
    · rw [h.withDirection_inj hr hs .out heq]
    · have hdirection := congrArg Relation.direction heq
      simp only [Relation.direction_withDirection, reduceCtorEq] at hdirection
  · rintro rfl
    exact ⟨r, hr, .inl ⟨rfl, rfl⟩⟩

theorem Declared.mem_attachedTo_inbound_iff (h : rs.Declared) {r : Relation}
    (hr : r ∈ rs.relations) (name : String) :
    r.withDirection .inbound ∈ rs.attachedTo name ↔ r.isOne ∧ name = r.referenceModel := by
  rw [mem_attachedTo_iff]
  constructor
  · rintro ⟨s, hs, ⟨heq, -⟩ | ⟨heq, hone, rfl⟩⟩
    · have hdirection := congrArg Relation.direction heq
      simp only [Relation.direction_withDirection, reduceCtorEq] at hdirection
    · rw [h.withDirection_inj hr hs .inbound heq]
      exact ⟨hone, rfl⟩
  · rintro ⟨hone, rfl⟩
    exact ⟨r, hr, .inr ⟨rfl, hone, rfl⟩⟩

theorem Declared.count_attachedTo_out (h : rs.Declared) {r : Relation} (hr : r ∈ rs.relations)
    (name : String) :
    (rs.attachedTo name).count (r.withDirection .out) = if name = r.sourceModel then 1 else 0 := by
  rw [(h.nodup_attachedTo name).count]
  exact if_congr (h.mem_attachedTo_out_iff hr name) rfl rfl

theorem Declared.count_attachedTo_inbound (h : rs.Declared) {r : Relation}
    (hr : r ∈ rs.relations) (name : String) :
    (rs.attachedTo name).count (r.withDirection .inbound) =
      if r.isOne ∧ name = r.referenceModel then 1 else 0 := by
  rw [(h.nodup_attachedTo name).count]
  exact if_congr (h.mem_attachedTo_inbound_iff hr name) rfl rfl

theorem length_attachedTo (rs : ResolvedRelations) (name : String) :
    (rs.attachedTo name).length =
      (rs.relations.countP fun r => r.isOne && r.referenceModel == name) +
        rs.relations.countP fun r => true && r.sourceModel == name := by
  simp only [attachedTo, List.length_append, List.length_map, List.countP_eq_length_filter,
    Bool.true_and]

end ResolvedRelations

/-- Distinct names divide what carries one of them. -/
theorem sum_countP_of_nodup {α : Type} (p : α → Bool) (name : α → String) (as : List α)
    {names : List String} (hnodup : names.Nodup) :
    (names.map fun n => as.countP fun a => p a && name a == n).sum =
      as.countP fun a => p a && decide (name a ∈ names) := by
  induction names with
  | nil => simp
  | cons n names ih =>
    obtain ⟨hn, hnodup⟩ := List.nodup_cons.mp hnodup
    rw [List.map_cons, List.sum_cons, ih hnodup]
    clear ih
    -- What carries the first name carries none of the others, so nothing is counted twice.
    induction as with
    | nil => rfl
    | cons a as ih =>
      have hsplit : (if p a && decide (name a ∈ n :: names) then 1 else 0) =
          (if p a && name a == n then 1 else 0) +
            (if p a && decide (name a ∈ names) then 1 else 0) := by
        by_cases hname : name a = n
        · simp [hname, hn]
        · simp [hname]
      simp only [List.countP_cons, ← ih]
      omega

namespace Schema

theorem isSome_model?_iff {s : Schema} {name : String} :
    (s.model? name).isSome = true ↔ name ∈ s.models.map (·.canonicalName) := by
  simp only [model?, List.find?_isSome, beq_iff_eq, List.mem_map]

/-- The relations on the models are the views of the relations of the schema, each exactly once
on its model, and nothing else. -/
structure ViewsDual (s : Schema) : Prop where
  distinctNames : (s.models.map (·.canonicalName)).Nodup
  out : ∀ r ∈ s.relations, ∀ m ∈ s.models,
    m.relations.count (r.withDirection .out) = if m.canonicalName = r.sourceModel then 1 else 0
  inbound : ∀ r ∈ s.relations, ∀ m ∈ s.models,
    m.relations.count (r.withDirection .inbound) =
      if r.isOne ∧ m.canonicalName = r.referenceModel then 1 else 0
  nothingElse : ∀ m ∈ s.models, ∀ v ∈ m.relations, ∃ r ∈ s.relations,
    v = r.withDirection .out ∧ r.sourceModel = m.canonicalName ∨
      v = r.withDirection .inbound ∧ r.isOne ∧ r.referenceModel = m.canonicalName
  inboundFirst : ∀ m ∈ s.models, ∃ ins outs, m.relations = ins ++ outs ∧
    (∀ v ∈ ins, v.direction = .inbound) ∧ ∀ v ∈ outs, v.direction = .out
  total : (s.models.map (·.relations.length)).sum =
    (s.relations.countP fun r => r.isOne && (s.model? r.referenceModel).isSome) +
      s.relations.countP fun r => (s.model? r.sourceModel).isSome

end Schema

namespace ResolvedRelations

/-- The views on models of distinct names, all told. -/
theorem sum_length_attachedTo (rs : ResolvedRelations) {names : List String}
    (hnodup : names.Nodup) :
    (names.map fun n => (rs.attachedTo n).length).sum =
      (rs.relations.countP fun r => r.isOne && decide (r.referenceModel ∈ names)) +
        rs.relations.countP fun r => decide (r.sourceModel ∈ names) := by
  simp only [length_attachedTo, List.sum_map_add]
  rw [sum_countP_of_nodup _ _ _ hnodup, sum_countP_of_nodup _ _ _ hnodup]
  simp only [Bool.true_and]

end ResolvedRelations

namespace Graph

theorem declared_resolved (g : Graph) : g.resolved.Declared :=
  ⟨g.nodup_resolved, fun _ hr => g.direction_of_mem_resolved hr⟩

theorem map_canonicalName_schema (g : Graph) :
    g.schema.models.map (·.canonicalName) = g.tables.map (·.name) := by
  simp only [schema, List.map_map]
  rfl

theorem distinctNames_of_normalize {policy : UnresolvedPolicy} {g : Graph} {s : Schema}
    (h : g.normalize policy = .ok s) : (s.models.map (·.canonicalName)).Nodup := by
  obtain ⟨hfaults, rfl⟩ := normalize_eq_ok_iff.mp h
  rw [map_canonicalName_schema]
  exact (faults_eq_nil_iff.mp hfaults).distinctNames

theorem viewsDual_of_normalize {policy : UnresolvedPolicy} {g : Graph} {s : Schema}
    (h : g.normalize policy = .ok s) : s.ViewsDual := by
  obtain ⟨hfaults, rfl⟩ := normalize_eq_ok_iff.mp h
  have hnames := (faults_eq_nil_iff.mp hfaults).distinctNames
  have hd := g.declared_resolved
  constructor
  case distinctNames =>
    rw [map_canonicalName_schema]
    exact hnames
  case out =>
    intro r hr m hm
    obtain ⟨t, -, rfl⟩ := List.mem_map.mp hm
    exact hd.count_attachedTo_out hr t.name
  case inbound =>
    intro r hr m hm
    obtain ⟨t, -, rfl⟩ := List.mem_map.mp hm
    exact hd.count_attachedTo_inbound hr t.name
  case nothingElse =>
    intro m hm v hv
    obtain ⟨t, -, rfl⟩ := List.mem_map.mp hm
    exact ResolvedRelations.mem_attachedTo_iff.mp hv
  case inboundFirst =>
    intro m hm
    obtain ⟨t, -, rfl⟩ := List.mem_map.mp hm
    exact g.resolved.attachedTo_inbound_first t.name
  case total =>
    have hlengths : g.schema.models.map (·.relations.length) =
        (g.tables.map (·.name)).map fun n => (g.resolved.attachedTo n).length := by
      simp only [schema, List.map_map]
      rfl
    have hmodel (name : String) :
        (g.schema.model? name).isSome = decide (name ∈ g.tables.map (·.name)) := by
      rw [Bool.eq_iff_iff, Schema.isSome_model?_iff, map_canonicalName_schema, decide_eq_true_iff]
    rw [hlengths, g.resolved.sum_length_attachedTo hnames]
    simp only [hmodel]
    rfl

/-- A relation of a table to itself, one to a table that is not declared, the same twice, and two
to many rows. -/
def genealogy : Graph where
  version := none
  entries := [
    .table ((TableDeclaration.ofName "Person").addForeignKey ⟨["motherId"], "Person", ["id"]⟩),
    .relations ⟨"personRelations", "Person", [
      ⟨"mother", .one, "", "Person", none⟩, ⟨"home", .one, "", "Place", none⟩,
      ⟨"mother", .one, "Person", "Person", none⟩, ⟨"children", .many, "", "Person", none⟩,
      ⟨"people", .many, "Place", "Person", none⟩]⟩]

theorem viewsDual_of_normalize_genealogy :
    ∃ s, genealogy.normalize .warn = .ok s ∧ s.ViewsDual ∧ s.relations.length = 4 ∧
      s.models.map (·.relations.length) = [4] := by
  have h : genealogy.normalize .warn = .ok genealogy.schema := rfl
  exact ⟨genealogy.schema, h, viewsDual_of_normalize h, rfl, rfl⟩

end Graph
end Schemata
