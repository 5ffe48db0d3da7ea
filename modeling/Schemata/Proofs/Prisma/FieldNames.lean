import Schemata.Proofs.Prisma.Lines
import Schemata.Proofs.References
/-!
# The names of fields

The fields of a block are named for columns, for relations that are declared on its model, and
otherwise for the models that relations come from. Only the last are chosen, with an eye to the
columns and to those chosen before alone, and the second choice is taken whether it is free or not
(`nodup_fieldNames_iff`).
-/

namespace Schemata

namespace Prisma

/-- The relations to one row that lead to a model. -/
def inverseOnes (m : Model) : List OneRelation :=
  (m.relationsIn .inbound).filterMap Relation.one?

/-- The names of the fields of relations that lead to a model, where these names are used before
them. -/
def inverseNames : (used : List String) → List OneRelation → List String
  | _, [] => []
  | used, r :: rest => inboundName used r :: inverseNames (inboundName used r :: used) rest

/-- The names that are used before the field of a relation is named, where the fields of these
relations are named before it. -/
def namesBefore (m : Model) (before : List OneRelation) : List String :=
  m.columns.map (·.fieldName) ++ inverseNames (m.columns.map (·.fieldName)) before

theorem map_name_relationLines_of_out (used : List String) {outs : List Relation}
    (houts : ∀ v ∈ outs, v.direction = .out) :
    (relationLines used outs).map (·.name) =
      (outs.filterMap Relation.one?).map (·.fieldName) := by
  induction outs generalizing used with
  | nil => rfl
  | cons v outs ih =>
    rw [List.forall_mem_cons] at houts
    obtain ⟨hv, hrest⟩ := houts
    cases v with
    | many r => exact ih used hrest
    | one r =>
      have hd : r.direction = .out := hv
      have hones : (Relation.one r :: outs).filterMap Relation.one? =
          r :: outs.filterMap Relation.one? := rfl
      rw [hones, List.map_cons, ← ih (r.fieldName :: used) hrest, relationLines, hd]
      rfl

theorem map_name_relationLines_append (used : List String) {ins outs : List Relation}
    (hins : ∀ v ∈ ins, v.direction = .inbound) (houts : ∀ v ∈ outs, v.direction = .out) :
    (relationLines used (ins ++ outs)).map (·.name) =
      inverseNames used (ins.filterMap Relation.one?) ++
        (outs.filterMap Relation.one?).map (·.fieldName) := by
  induction ins generalizing used with
  | nil => exact map_name_relationLines_of_out used houts
  | cons v ins ih =>
    rw [List.forall_mem_cons] at hins
    obtain ⟨hv, hrest⟩ := hins
    cases v with
    | many r => exact ih used hrest
    | one r =>
      have hd : r.direction = .inbound := hv
      have hones : (Relation.one r :: ins).filterMap Relation.one? =
          r :: ins.filterMap Relation.one? := rfl
      rw [hones, inverseNames, List.cons_append, List.cons_append,
        ← ih (inboundName used r :: used) hrest, relationLines, hd]
      rfl

theorem filter_direction_of_forall {vs : List Relation} {d : Direction}
    (h : ∀ v ∈ vs, v.direction = d) (other : Direction) :
    (vs.filter fun v => v.direction = other) = if d = other then vs else [] := by
  split
  · next heq => exact List.filter_eq_self.mpr fun v hv => decide_eq_true ((h v hv).trans heq)
  · next hne =>
    refine List.filter_eq_nil_iff.mpr fun v hv heq => hne ?_
    exact (h v hv).symm.trans (of_decide_eq_true heq)

theorem relationsIn_of_append {m : Model} {ins outs : List Relation}
    (hm : m.relations = ins ++ outs) (hins : ∀ v ∈ ins, v.direction = .inbound)
    (houts : ∀ v ∈ outs, v.direction = .out) :
    m.relationsIn .inbound = ins ∧ m.relationsIn .out = outs := by
  simp only [Model.relationsIn, hm, List.filter_append, filter_direction_of_forall hins,
    filter_direction_of_forall houts, reduceCtorEq, if_true, if_false, List.append_nil,
    List.nil_append, and_self]

/-- Where relations that lead to a model stand in front of those declared on it, only the names of
the columns are used before theirs. -/
theorem fieldNames_modelBlock {m : Model} {ins outs : List Relation}
    (hm : m.relations = ins ++ outs) (hins : ∀ v ∈ ins, v.direction = .inbound)
    (houts : ∀ v ∈ outs, v.direction = .out) :
    (modelBlock m).fieldNames =
      namesBefore m (inverseOnes m) ++ (Schema.declaredOnes m).map (·.fieldName) := by
  obtain ⟨hinverse, hdeclared⟩ := relationsIn_of_append hm hins houts
  have hcolumns : (modelBlock m).columns.map (·.name) = m.columns.map (·.fieldName) :=
    List.map_map
  have hones : Schema.declaredOnes m = outs.filterMap Relation.one? := by
    rw [← hdeclared]
    rfl
  have hlines : (modelBlock m).relations =
      relationLines (m.columns.map (·.fieldName)) (ins ++ outs) := by
    rw [← hm]
    rfl
  rw [ModelBlock.fieldNames, hcolumns, hlines, map_name_relationLines_append _ hins houts,
    namesBefore, inverseOnes, hinverse, hones, List.append_assoc]

theorem inboundName_not_mem_iff {used : List String} {r : OneRelation} :
    inboundName used r ∉ used ↔
      (r.sourceModel ∈ used → s!"{r.sourceModel}_{r.declaredName}" ∉ used) := by
  unfold inboundName
  split
  · next h => exact ⟨fun hfree _ => hfree, fun hfree => hfree h⟩
  · next h => exact ⟨fun _ hused => absurd hused h, fun _ => h⟩

/-- A name is chosen with an eye to which names are used, not to their order. -/
theorem inboundName_not_mem_congr {used other : List String} (h : used.Perm other)
    {r : OneRelation} : inboundName used r ∉ used ↔ inboundName other r ∉ other := by
  rw [inboundName_not_mem_iff, inboundName_not_mem_iff, h.mem_iff, h.mem_iff]

theorem forall_eq_append_cons_iff {α : Type} {a : α} {as : List α} {p : List α → α → Prop} :
    (∀ before x after, a :: as = before ++ x :: after → p before x) ↔
      p [] a ∧ ∀ before x after, as = before ++ x :: after → p (a :: before) x := by
  constructor
  · intro h
    exact ⟨h [] a as rfl, fun before x after heq => h (a :: before) x after (heq ▸ rfl)⟩
  · rintro ⟨hfirst, hrest⟩ before x after heq
    cases before with
    | nil =>
      cases heq
      exact hfirst
    | cons b before =>
      obtain ⟨rfl, hsplit⟩ := List.cons.inj heq
      exact hrest before x after hsplit

/-- Names are distinct exactly if each is free where it is chosen. -/
theorem nodup_append_inverseNames_iff {used : List String} {rs : List OneRelation} :
    (used ++ inverseNames used rs).Nodup ↔
      used.Nodup ∧ ∀ before r after, rs = before ++ r :: after →
        inboundName (used ++ inverseNames used before) r ∉ used ++ inverseNames used before := by
  induction rs generalizing used with
  | nil => simp [inverseNames]
  | cons r rs ih =>
    -- The first name counts as used for the rest, wherever it stands among the used ones.
    have hused (before : List OneRelation) :
        (used ++ inverseNames used (r :: before)).Perm
          (inboundName used r :: used ++ inverseNames (inboundName used r :: used) before) :=
      List.perm_middle
    rw [(hused rs).nodup_iff, ih, List.nodup_cons, forall_eq_append_cons_iff, inverseNames,
      List.append_nil]
    simp only [inboundName_not_mem_congr (hused _)]
    rw [and_comm (a := inboundName used r ∉ used), and_assoc]

end Prisma

namespace Graph

open Prisma

variable {policy : UnresolvedPolicy} {g : Graph} {s : Schema}

theorem inboundFirst_of_normalize (h : g.normalize policy = .ok s) {m : Model}
    (hm : m ∈ s.models) :
    ∃ ins outs, m.relations = ins ++ outs ∧ (∀ v ∈ ins, v.direction = .inbound) ∧
      ∀ v ∈ outs, v.direction = .out := by
  obtain ⟨-, rfl⟩ := normalize_eq_ok_iff.mp h
  obtain ⟨t, -, rfl⟩ := List.mem_map.mp hm
  exact g.resolved.attachedTo_inbound_first t.name

/-- Where the relations declared on a model have names of their own, the fields of its block are
named apart exactly if no name is taken twice for relations that lead to the model, and none that
is the name of a relation declared on it. -/
theorem nodup_fieldNames_iff
    (h : g.normalize policy = .ok s) {m : Model} (hm : m ∈ s.models)
    (hdistinct : ((Schema.declaredOnes m).map (·.fieldName)).Nodup)
    (hcolumns : ∀ r ∈ Schema.declaredOnes m, r.fieldName ∉ m.columns.map (·.fieldName)) :
    (modelBlock m).fieldNames.Nodup ↔
      (∀ before r after, inverseOnes m = before ++ r :: after →
        r.sourceModel ∈ namesBefore m before →
          s!"{r.sourceModel}_{r.declaredName}" ∉ namesBefore m before) ∧
      ∀ r ∈ Schema.declaredOnes m,
        r.fieldName ∉ inverseNames (m.columns.map (·.fieldName)) (inverseOnes m) := by
  obtain ⟨ins, outs, hrelations, hins, houts⟩ := inboundFirst_of_normalize h hm
  rw [fieldNames_modelBlock hrelations hins houts, List.nodup_append, namesBefore,
    nodup_append_inverseNames_iff]
  constructor
  · rintro ⟨⟨-, hfree⟩, -, hapart⟩
    refine ⟨fun before r after heq => inboundName_not_mem_iff.mp (hfree before r after heq), ?_⟩
    intro r hr hmem
    exact hapart _ (List.mem_append_right _ hmem) _ (List.mem_map_of_mem hr) rfl
  · rintro ⟨hfree, hapart⟩
    refine ⟨⟨nodup_columns_of_normalize h hm, fun before r after heq =>
      inboundName_not_mem_iff.mpr (hfree before r after heq)⟩, hdistinct, ?_⟩
    rintro name hname _ hdeclared rfl
    obtain ⟨r, hr, rfl⟩ := List.mem_map.mp hdeclared
    rcases List.mem_append.mp hname with hcolumn | hinverse
    · exact hcolumns r hr hcolumn
    · exact hapart r hr hinverse

/-- Two relations from posts to users, and one back under a name of choice. -/
def pins (pin : String) : Graph where
  version := none
  entries := [
    .table ((TableDeclaration.ofName "Post").addColumn (.ofName "authorId" .text "text")),
    .table (((TableDeclaration.ofName "User").addColumn (.ofName "id" .text "text")).addColumn
      (.ofName "postId" .text "text")),
    .relations ⟨"postRelations", "Post", [
      ⟨"author", .one, "", "User", some ⟨["authorId"], ["id"], none, some "authors"⟩⟩,
      ⟨"editor", .one, "", "User", some ⟨["authorId"], ["id"], none, some "editors"⟩⟩]⟩,
    .relations ⟨"userRelations", "User", [
      ⟨pin, .one, "", "Post", some ⟨["postId"], ["authorId"], none, none⟩⟩]⟩]

theorem nodup_fieldNames_iff_pins :
    ∃ s m, (pins "pinned").normalize .error = .ok s ∧ m ∈ s.models ∧
      (modelBlock m).fieldNames = ["id", "postId", "Post", "Post_editor", "pinned"] ∧
      (modelBlock m).fieldNames.Nodup := by
  let s := (pins "pinned").schema
  have h : (pins "pinned").normalize .error = .ok s := rfl
  have hm : s.models[1] ∈ s.models := List.getElem_mem (by decide)
  let inverse (name relationName : String) : OneRelation :=
    ⟨name, name, some relationName, "Post", "User", ["authorId"], ["id"], true, .inbound⟩
  have hinverse : inverseOnes s.models[1] =
      [inverse "author" "authors", inverse "editor" "editors"] := by
    decide
  refine ⟨s, s.models[1], h, hm, by decide, ?_⟩
  refine (nodup_fieldNames_iff h hm (by decide) (by decide)).mpr ⟨?_, by decide⟩
  rw [hinverse, forall_eq_append_cons_iff, forall_eq_append_cons_iff]
  refine ⟨by decide, by decide, fun before r after heq => ?_⟩
  exact absurd heq.symm (List.append_ne_nil_of_right_ne_nil before (List.cons_ne_nil r after))

/-- The fields of a block can share a name though those of columns and of declared relations do
not. -/
theorem not_nodup_fieldNames :
    ¬∀ (policy : UnresolvedPolicy) (g : Graph) (s : Schema), g.normalize policy = .ok s →
      ∀ m ∈ s.models, ((Schema.declaredOnes m).map (·.fieldName)).Nodup →
        (∀ r ∈ Schema.declaredOnes m, r.fieldName ∉ m.columns.map (·.fieldName)) →
          (modelBlock m).fieldNames.Nodup := by
  intro hall
  let s := (pins "Post").schema
  have hm : s.models[1] ∈ s.models := List.getElem_mem (by decide)
  exact absurd (hall .error (pins "Post") s rfl _ hm (by decide) (by decide)) (by decide)

end Graph
end Schemata
