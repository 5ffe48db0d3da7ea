import Mathlib.Data.List.Basic
import Schemata.Prisma.Document
/-!
# The lines of model blocks

A document has a block for each model, and a block a line for each relation to one row that the
model takes part in. The names of inverse fields depend on the lines before them; all else of a
line is said by its relation alone (`map_withName_relationLines`). Where the names stand in the text
of a line is the same for all of them (`RelationLine.render_eq`).
-/

namespace Schemata

namespace Relation

def one? : Relation → Option OneRelation
  | .one r => some r
  | .many _ => none

theorem one?_eq_some_iff {x : Relation} {r : OneRelation} : x.one? = some r ↔ x = .one r := by
  cases x <;> simp [one?]

end Relation

namespace Prisma

theorem mem_models_document_iff {preludeText : String} {s : Schema} {b : ModelBlock} :
    b ∈ (document preludeText s).models ↔ ∃ m ∈ s.models, modelBlock m = b := by
  simp only [document, List.mem_map, List.mem_mergeSort]

theorem modelBlock_mem_document (preludeText : String) {s : Schema} {m : Model}
    (hm : m ∈ s.models) : modelBlock m ∈ (document preludeText s).models :=
  mem_models_document_iff.mpr ⟨m, hm, rfl⟩

namespace RelationLine

/-- What the type of the field is marked with: that there may be no row, or that there are many. -/
def mark : RelationLine → String
  | .outbound _ _ isOptional .. => if isOptional then "?" else ""
  | .inbound .. => "[]"

theorem references_eq_nil {l : RelationLine} (h : l.fields = []) : l.references = [] := by
  cases l with
  | outbound => exact if_pos (List.isEmpty_iff.mpr h)
  | inbound => rfl

/-- The lists of columns on a line: both or none. -/
def lists (l : RelationLine) : List String :=
  if l.fields.isEmpty then []
  else [listed "fields: " l.fields, listed "references: " l.references]

/-- On every line the field stands with its type in front, and in `@relation` the constraint in
quotes and the columns of both sides. -/
theorem render_eq (l : RelationLine) :
    l.render = l.name ++ " " ++ l.type ++ l.mark ++ " @relation(" ++
      ", ".intercalate (("\"" ++ l.constraint ++ "\"") :: l.lists) ++ ")" := by
  cases l with
  | outbound name type isOptional constraint fields references =>
    unfold lists
    cases fields <;> rfl
  | inbound name type constraint =>
    show name ++ " " ++ type ++ "[] @relation(\"" ++ constraint ++ "\")" =
      name ++ " " ++ type ++ "[]" ++ " @relation(" ++ ("\"" ++ constraint ++ "\"") ++ ")"
    simp only [String.append_assoc]
    rfl

/-- The line with another name for its field. -/
def withName (name : String) : RelationLine → RelationLine
  | .outbound _ type isOptional constraint fields references =>
    .outbound name type isOptional constraint fields references
  | .inbound _ type constraint => .inbound name type constraint

@[simp]
theorem withName_withName (name other : String) (l : RelationLine) :
    (l.withName other).withName name = l.withName name := by
  cases l <;> rfl

@[simp]
theorem withName_name (l : RelationLine) : l.withName l.name = l := by
  cases l <;> rfl

end RelationLine

/-- The line of a relation as its model sees it, under a name. -/
def lineOf (name : String) (r : OneRelation) : RelationLine :=
  match r.direction with
  | .out => (outboundLine r).withName name
  | .inbound => .inbound name r.sourceModel r.constraintName

@[simp]
theorem withName_lineOf (name other : String) (r : OneRelation) :
    (lineOf other r).withName name = lineOf name r := by
  rw [lineOf, lineOf]
  cases r.direction <;> rfl

/-- But for the names of their fields, the lines are those of the relations to one row in their
order, whatever names are used before them. -/
theorem map_withName_relationLines (used : List String) (rs : List Relation) :
    (relationLines used rs).map (·.withName "") =
      (rs.filterMap Relation.one?).map (lineOf "") := by
  induction rs generalizing used with
  | nil => rfl
  | cons x rs ih =>
    cases x with
    | many r => exact ih used
    | one r =>
      have hones : (Relation.one r :: rs).filterMap Relation.one? =
          r :: rs.filterMap Relation.one? := rfl
      rw [hones, List.map_cons, relationLines, lineOf]
      cases r.direction with
      | out => rw [List.map_cons, ih]
      | inbound =>
        rw [List.map_cons, ih]
        rfl

variable {used : List String} {rs : List Relation}

theorem exists_relation_of_mem_relationLines {l : RelationLine} (hl : l ∈ relationLines used rs) :
    ∃ r, .one r ∈ rs ∧ l = lineOf l.name r := by
  have hmem := List.mem_map_of_mem (f := (·.withName "")) hl
  rw [map_withName_relationLines, List.mem_map] at hmem
  obtain ⟨r, hr, heq⟩ := hmem
  obtain ⟨x, hx, hone⟩ := List.mem_filterMap.mp hr
  refine ⟨r, Relation.one?_eq_some_iff.mp hone ▸ hx, ?_⟩
  rw [← withName_lineOf l.name "", heq, RelationLine.withName_withName, RelationLine.withName_name]

theorem exists_mem_relationLines (used : List String) {r : OneRelation} (hr : .one r ∈ rs) :
    ∃ name, lineOf name r ∈ relationLines used rs := by
  have hmem : lineOf "" r ∈ (rs.filterMap Relation.one?).map (lineOf "") :=
    List.mem_map_of_mem (List.mem_filterMap.mpr ⟨.one r, hr, rfl⟩)
  rw [← map_withName_relationLines used, List.mem_map] at hmem
  obtain ⟨l, hl, heq⟩ := hmem
  refine ⟨l.name, ?_⟩
  rwa [← withName_lineOf l.name "", ← heq, RelationLine.withName_withName,
    RelationLine.withName_name]

/-- Lines that are told apart by other things than their names are as many as their relations. -/
theorem countP_relationLines {p : RelationLine → Bool} (hp : ∀ l, p (l.withName "") = p l)
    (used : List String) (rs : List Relation) :
    (relationLines used rs).countP p = rs.countP fun x => x.one?.any fun r => p (lineOf "" r) := by
  have hlines : (relationLines used rs).countP p =
      ((relationLines used rs).map (·.withName "")).countP p := by
    rw [List.countP_map]
    exact List.countP_congr fun l _ => by rw [Function.comp_apply, hp]
  rw [hlines, map_withName_relationLines, List.countP_map, List.countP_filterMap]
  refine List.countP_congr fun x _ => ?_
  cases x <;> rfl

end Prisma
end Schemata
