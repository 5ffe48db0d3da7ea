import Schemata.Proofs.Prisma.Lines
import Schemata.Proofs.Views
/-!
# The two ends of a relation

A relation has a line on the block of the model that it starts from and one on the block of the
model that it leads to, and both carry its name. A name that is not stated is made of the two
models, so that it tells apart relations between different models only
(`endsPaired_of_normalize`).
-/

namespace Schemata

namespace Relation

/-- Whether a relation to one row leads from one model to another under a name. -/
def joins (source reference constraint : String) (x : Relation) : Bool :=
  x.one?.any fun r =>
    r.sourceModel == source && r.referenceModel == reference && r.constraintName == constraint

theorem joins_one_iff {source reference constraint : String} {r : OneRelation} :
    (Relation.one r).joins source reference constraint = true ↔
      r.sourceModel = source ∧ r.referenceModel = reference ∧ r.constraintName = constraint := by
  simp only [joins, one?, Option.any_some, Bool.and_eq_true, beq_iff_eq, and_assoc]

theorem joins_source (name reference constraint : String) (x : Relation) :
    (x.joins x.sourceModel reference constraint && x.sourceModel == name) =
      x.joins name reference constraint := by
  cases x with
  | many r => rfl
  | one r =>
    rw [Bool.eq_iff_iff, Bool.and_eq_true, joins_one_iff, joins_one_iff, beq_iff_eq]
    exact ⟨fun h => ⟨h.2, h.1.2⟩, fun h => ⟨⟨rfl, h.2⟩, h.1⟩⟩

theorem joins_reference (source name constraint : String) (x : Relation) :
    (x.joins source x.referenceModel constraint && (x.isOne && x.referenceModel == name)) =
      x.joins source name constraint := by
  cases x with
  | many r => rfl
  | one r =>
    rw [Bool.eq_iff_iff, Bool.and_eq_true, Bool.and_eq_true, joins_one_iff, joins_one_iff,
      beq_iff_eq]
    exact ⟨fun h => ⟨h.1.1, h.2.2, h.1.2.2⟩, fun h => ⟨⟨h.1, rfl, h.2.2⟩, rfl, h.2.1⟩⟩

end Relation

namespace OneRelation

theorem constraintName_of_relationName_none {r : OneRelation} (h : r.relationName = none) :
    r.constraintName = s!"{r.referenceModel}_{r.sourceModel}" := by
  rw [constraintName, h]
  rfl

end OneRelation

namespace Prisma

/-- Whether a line is the one end or the other of a relation with a model, under a name. -/
def RelationLine.isEnd (isOutbound : Bool) (type constraint : String) (l : RelationLine) : Bool :=
  l.isOutbound == isOutbound && l.type == type && l.constraint == constraint

/-- Whether the line of a relation is such an end. -/
def hasEnd (isOutbound : Bool) (type constraint : String) (x : Relation) : Bool :=
  x.one?.any fun r => (lineOf "" r).isEnd isOutbound type constraint

theorem countP_isEnd_relationLines (isOutbound : Bool) (type constraint : String)
    (used : List String) (rs : List Relation) :
    (relationLines used rs).countP (·.isEnd isOutbound type constraint) =
      rs.countP (hasEnd isOutbound type constraint) := by
  refine countP_relationLines (fun l => ?_) used rs
  cases l <;> rfl

theorem hasEnd_withDirection_inbound (isOutbound : Bool) (type constraint : String) (x : Relation) :
    hasEnd isOutbound type constraint (x.withDirection .inbound) =
      (!isOutbound && x.joins type x.referenceModel constraint) := by
  cases x with
  | many r => exact (Bool.and_false _).symm
  | one r =>
    cases isOutbound <;> simp [hasEnd, Relation.joins, Relation.withDirection, Relation.one?,
      lineOf, Relation.referenceModel, RelationLine.isEnd, RelationLine.isOutbound,
      RelationLine.type, RelationLine.constraint, OneRelation.constraintName]

theorem hasEnd_withDirection_out (isOutbound : Bool) (type constraint : String) (x : Relation) :
    hasEnd isOutbound type constraint (x.withDirection .out) =
      (isOutbound && x.joins x.sourceModel type constraint) := by
  cases x with
  | many r => exact (Bool.and_false _).symm
  | one r =>
    cases isOutbound <;> simp [hasEnd, Relation.joins, Relation.withDirection, Relation.one?,
      lineOf, Relation.sourceModel, RelationLine.isEnd, RelationLine.isOutbound, RelationLine.type,
      RelationLine.constraint, RelationLine.withName, outboundLine, OneRelation.constraintName]

theorem countP_attachedTo (p : Relation → Bool) (rs : ResolvedRelations) (name : String) :
    (rs.attachedTo name).countP p =
      rs.relations.countP (fun x =>
        p (x.withDirection .inbound) && (x.isOne && x.referenceModel == name)) +
      rs.relations.countP fun x => p (x.withDirection .out) && x.sourceModel == name := by
  rw [ResolvedRelations.attachedTo, List.countP_append, List.countP_map, List.countP_map,
    List.countP_filter, List.countP_filter]
  rfl

/-- Relations that are seen from where they lead to have no outbound end. -/
theorem countP_hasEnd_true_attachedTo (rs : ResolvedRelations) (name type constraint : String) :
    (rs.attachedTo name).countP (hasEnd true type constraint) =
      rs.relations.countP (·.joins name type constraint) := by
  simp only [countP_attachedTo, hasEnd_withDirection_inbound, hasEnd_withDirection_out,
    Bool.not_true, Bool.true_and, Bool.false_and, Relation.joins_source, List.countP_false,
    Function.const_apply, Nat.zero_add]

/-- Relations that are seen from where they start have no inbound end. -/
theorem countP_hasEnd_false_attachedTo (rs : ResolvedRelations) (name type constraint : String) :
    (rs.attachedTo name).countP (hasEnd false type constraint) =
      rs.relations.countP (·.joins type name constraint) := by
  simp only [countP_attachedTo, hasEnd_withDirection_inbound, hasEnd_withDirection_out,
    Bool.not_false, Bool.true_and, Bool.false_and, Relation.joins_reference, List.countP_false,
    Function.const_apply, Nat.add_zero]

end Prisma

/-- In a list without repetitions, a test that is passed once is passed by one element alone. -/
theorem countP_eq_one_iff_existsUnique {α : Type} [DecidableEq α] {p : α → Bool} {as : List α}
    (h : as.Nodup) : as.countP p = 1 ↔ ∃! a, a ∈ as ∧ p a = true := by
  constructor
  · intro hone
    rw [List.countP_eq_length_filter, List.length_eq_one_iff] at hone
    obtain ⟨a, ha⟩ := hone
    have hpass (b : α) : b ∈ as ∧ p b = true ↔ b = a := by
      rw [← List.mem_filter, ha, List.mem_singleton]
    exact ⟨a, (hpass a).mpr rfl, fun b => (hpass b).mp⟩
  · rintro ⟨a, ⟨ha, hp⟩, halone⟩
    have hcount : as.countP p = as.count a := by
      refine List.countP_congr fun b hb => ?_
      rw [beq_iff_eq]
      exact ⟨fun hpb => halone b ⟨hb, hpb⟩, fun heq => heq ▸ hp⟩
    rw [hcount, List.count_eq_one_of_mem h ha]

namespace Prisma

/-- The lines of a document are the two ends of the relations of a schema, paired by their names
as far as these tell relations apart. -/
structure Document.EndsPaired (d : Document) (s : Schema) : Prop where
  /-- Relations between the same models that state no names of their own have the same one. -/
  alike : ∀ r r', .one r ∈ s.relations → .one r' ∈ s.relations →
    r.sourceModel = r'.sourceModel → r.referenceModel = r'.referenceModel →
    r.relationName = none → r'.relationName = none →
      r.constraintName = s!"{r.referenceModel}_{r.sourceModel}" ∧
        r.constraintName = r'.constraintName
  outbound : ∀ b ∈ d.models, ∀ other constraint,
    b.relations.countP (·.isEnd true other constraint) =
      s.relations.countP (·.joins b.name other constraint)
  inverse : ∀ b ∈ d.models, ∀ other constraint,
    b.relations.countP (·.isEnd false other constraint) =
      s.relations.countP (·.joins other b.name constraint)
  /-- An inverse line finds a single line at the other end exactly if it is that of one relation
  alone. -/
  alone : ∀ b ∈ d.models, ∀ l ∈ b.relations, l.isOutbound = false →
    ∀ b' ∈ d.models, b'.name = l.type →
      (b'.relations.countP (·.isEnd true b.name l.constraint) = 1 ↔
        ∃! x, x ∈ s.relations ∧ x.joins b'.name b.name l.constraint = true)

end Prisma

namespace Graph

open Prisma

/-- A block of a normalized schema has the ends of the relations that are attached to the table of
its name. -/
theorem countP_isEnd_of_mem_models {g : Graph} {preludeText : String} {b : ModelBlock}
    (hb : b ∈ (document preludeText g.schema).models) (isOutbound : Bool)
    (other constraint : String) :
    b.relations.countP (·.isEnd isOutbound other constraint) =
      (g.resolved.attachedTo b.name).countP (hasEnd isOutbound other constraint) := by
  obtain ⟨m, hm, rfl⟩ := mem_models_document_iff.mp hb
  obtain ⟨t, -, rfl⟩ := List.mem_map.mp hm
  exact countP_isEnd_relationLines isOutbound other constraint _ _

/-- On each block there are as many lines of either kind to a model, under a name, as relations
that lead there or come from there under it, which one relation alone may do. -/
theorem endsPaired_of_normalize {policy : UnresolvedPolicy} {g : Graph} {s : Schema}
    (h : g.normalize policy = .ok s) (preludeText : String) :
    (document preludeText s).EndsPaired s := by
  obtain ⟨-, rfl⟩ := normalize_eq_ok_iff.mp h
  have houtbound : ∀ b ∈ (document preludeText g.schema).models, ∀ other constraint,
      b.relations.countP (·.isEnd true other constraint) =
        g.schema.relations.countP (·.joins b.name other constraint) := by
    intro b hb other constraint
    rw [countP_isEnd_of_mem_models hb, countP_hasEnd_true_attachedTo]
    rfl
  constructor
  case alike =>
    intro r r' _ _ hsource hreference hr hr'
    rw [OneRelation.constraintName_of_relationName_none hr,
      OneRelation.constraintName_of_relationName_none hr', hsource, hreference]
    exact ⟨rfl, rfl⟩
  case outbound => exact houtbound
  case inverse =>
    intro b hb other constraint
    rw [countP_isEnd_of_mem_models hb, countP_hasEnd_false_attachedTo]
    rfl
  case alone =>
    intro b _ l _ _ b' hb' _
    rw [houtbound b' hb' b.name l.constraint]
    exact countP_eq_one_iff_existsUnique g.nodup_resolved

/-- Two relations from transfers to accounts, the second under a stated name or not. -/
def wires (name : Option String) : Graph where
  version := none
  entries := [
    .table ((TableDeclaration.ofName "Account").addColumn (.ofName "id" .text "text")),
    .table (((TableDeclaration.ofName "Transfer").addColumn
      (.ofName "fromId" .text "text")).addColumn (.ofName "toId" .text "text")),
    .relations ⟨"transferRelations", "Transfer", [
      ⟨"from", .one, "", "Account", some ⟨["fromId"], ["id"], none, none⟩⟩,
      ⟨"to", .one, "", "Account", some ⟨["toId"], ["id"], none, name⟩⟩]⟩]

theorem endsPaired_of_normalize_wires :
    ∃ s, (wires (some "incoming")).normalize .error = .ok s ∧
      (document defaultPrelude s).EndsPaired s ∧
      ∀ b ∈ (document defaultPrelude s).models, b.name = "Transfer" →
        b.relations.countP (·.isEnd true "Account" "Account_Transfer") = 1 := by
  have h : (wires (some "incoming")).normalize .error = .ok (wires (some "incoming")).schema := rfl
  have hpaired := endsPaired_of_normalize h defaultPrelude
  refine ⟨_, h, hpaired, fun b hb hname => ?_⟩
  rw [hpaired.outbound b hb, hname]
  decide

/-- Different relations can have the same name. -/
theorem not_constraintName_ne :
    ¬∀ (policy : UnresolvedPolicy) (g : Graph) (s : Schema), g.normalize policy = .ok s →
      ∀ r r', .one r ∈ s.relations → .one r' ∈ s.relations → r ≠ r' →
        r.sourceModel = r'.sourceModel → r.referenceModel = r'.referenceModel →
        r.relationName = none → r'.relationName = none → r.constraintName ≠ r'.constraintName := by
  intro hall
  let r : OneRelation :=
    ⟨"from", "from", none, "Transfer", "Account", ["fromId"], ["id"], true, .out⟩
  let r' : OneRelation := ⟨"to", "to", none, "Transfer", "Account", ["toId"], ["id"], true, .out⟩
  have hr : .one r ∈ (wires none).schema.relations := by decide
  have hr' : .one r' ∈ (wires none).schema.relations := by decide
  exact hall .error (wires none) (wires none).schema rfl r r' hr hr' (by decide) rfl rfl rfl rfl rfl

end Graph
end Schemata
