import Mathlib.Algebra.BigOperators.Group.List.Basic
import Mathlib.Algebra.GroupWithZero.Nat
import Schemata.Proofs.Prisma.Lines
import Schemata.Proofs.Text.Lines
/-!
# Line breaks in model blocks

A block has a line for each column, each relation to one row and each index of its model, and
some around them. Names are written as they are, and so are texts as default values, their
quotes and backslashes aside: a line break in one of them stays a line break.
`lines_modelBlock` says how many lines that makes if the names have no breaks.
-/

namespace Schemata

/-- The names that the field of a column is written with. -/
def Column.writtenNames (c : Column) : List String := c.fieldName :: c.enumName.toList

/-- The names that the field of a relation is written with, on either side. -/
def OneRelation.writtenNames (r : OneRelation) : List String :=
  r.declaredName :: r.fieldName :: r.sourceModel :: r.referenceModel ::
    (r.relationName.toList ++ r.sourceFields ++ r.referenceFields)

/-- The names that the block of a model is written with. -/
def Model.writtenNames (m : Model) : List String :=
  m.canonicalName :: (m.columns.flatMap (·.writtenNames) ++
    (m.relations.filterMap Relation.one?).flatMap (·.writtenNames) ++
    m.indexes.flatMap (·.fields))

namespace Prisma

open Text (breaks breaks_append breaks_intercalate)

section Columns

/-- The default value that the field of a column shows. Fields of generated values and of points
in time show none of their own. -/
def writtenDefault? (c : Column) : Option DefaultValue :=
  if c.hasGeneratedId then none
  else
    match c.type with
    | .date | .datetime => none
    | _ => c.defaultValue

/-- The line breaks of the text that the field of a column shows as its default. -/
def defaultBreaks (c : Column) : Nat :=
  match writtenDefault? c with
  | some (.text text) => breaks text
  | _ => 0

theorem defaultBreaks_eq (c : Column) :
    defaultBreaks c = ((writtenDefault? c).toList.map fun v => breaks v.plainText).sum := by
  unfold defaultBreaks
  cases writtenDefault? c with
  | none => rfl
  | some v =>
    rw [Option.toList_some, List.map_singleton, List.sum_singleton, Text.breaks_plainText]
    cases v <;> rfl

theorem breaks_default (text : String) : breaks s!"@default({text})" = breaks text := by
  show breaks ("@default(" ++ text ++ ")") = breaks text
  rw [breaks_append, breaks_append]
  exact Nat.zero_add _

/-- Quoted or not, a default brings in its own line breaks. -/
theorem sum_breaks_defaultAttributes (c : Column) :
    ((defaultAttributes c).map breaks).sum = defaultBreaks c := by
  rw [defaultBreaks_eq, defaultAttributes, writtenDefault?]
  -- Both sides ask the same questions: first for a generated value, then for the type.
  by_cases hgenerated : c.hasGeneratedId = true
  · rw [if_pos hgenerated, if_pos hgenerated]
    rfl
  · rw [if_neg hgenerated, if_neg hgenerated]
    cases c.type
    case date | datetime => dsimp only; split <;> rfl
    case text | varchar =>
      simp only [List.map_map, Function.comp_def, breaks_default, Text.breaks_quote]
    all_goals simp only [List.map_map, Function.comp_def, breaks_default]

theorem sum_breaks_storageAttributes (c : Column) :
    ((storageAttributes c).map breaks).sum = 0 := by
  unfold storageAttributes
  cases c.type
  case varchar =>
    cases c.lengthHint with
    | none => rfl
    | some length =>
      show breaks ("@db.VarChar(" ++ toString length.toNat ++ ")") + 0 = 0
      rw [breaks_append, breaks_append, Text.breaks_natToString]
      rfl
  all_goals rfl

theorem sum_breaks_keyAttributes (c : Column) :
    ((keyAttributes c ++ updatedAttributes c).map breaks).sum = 0 := by
  unfold keyAttributes updatedAttributes
  cases c.isPrimary <;> cases c.isUnique <;> cases c.isUpdatedAt <;> rfl

theorem breaks_type {c : Column} (h : ∀ name ∈ c.writtenNames, breaks name = 0) :
    breaks (baseType c ++ typeMarks c) = 0 := by
  have hmarks : breaks (typeMarks c) = 0 := by
    unfold typeMarks
    cases c.isArray <;> cases c.isNullable <;> rfl
  rw [breaks_append, hmarks, Nat.add_zero, baseType]
  cases c.type
  case enum =>
    show breaks (c.enumName.getD c.fieldName) = 0
    cases henum : c.enumName with
    | none => exact h c.fieldName List.mem_cons_self
    | some name =>
      refine h name (List.mem_cons_of_mem _ ?_)
      rw [henum]
      exact List.mem_singleton_self name
  all_goals
    dsimp only
    rfl

theorem breaks_columnLine {c : Column} (h : ∀ name ∈ c.writtenNames, breaks name = 0) :
    breaks (columnLine c).render = defaultBreaks c := by
  have hfield : breaks c.fieldName = 0 := h _ List.mem_cons_self
  rw [ColumnLine.render, breaks_intercalate rfl]
  simp only [columnLine, List.map_cons, List.sum_cons, hfield, breaks_type h, Nat.zero_add]
  rw [List.map_append, List.map_append, List.sum_append, List.sum_append, sum_breaks_keyAttributes,
    sum_breaks_defaultAttributes, sum_breaks_storageAttributes, Nat.zero_add, Nat.add_zero]

end Columns

section Relations

theorem breaks_listed (label : String) (names : List String) :
    breaks (listed label names) = breaks label + (names.map breaks).sum := by
  rw [listed, breaks_append, breaks_append, breaks_append, breaks_intercalate rfl]
  rfl

theorem breaks_mark (l : RelationLine) : breaks l.mark = 0 := by
  cases l with
  | outbound _ _ isOptional =>
    rw [RelationLine.mark]
    cases isOptional <;> rfl
  | inbound =>
    rw [RelationLine.mark]
    rfl

theorem sum_breaks_lists (l : RelationLine) :
    (l.lists.map breaks).sum = (l.fields.map breaks).sum + (l.references.map breaks).sum := by
  have hfields : breaks "fields: " = 0 := rfl
  have hreferences : breaks "references: " = 0 := rfl
  -- The line has both lists or neither.
  unfold RelationLine.lists
  split
  next hempty =>
    have hnone := List.isEmpty_iff.mp hempty
    rw [hnone, RelationLine.references_eq_nil hnone]
    rfl
  next =>
    simp only [List.map_cons, List.map_nil, List.sum_cons, List.sum_nil, breaks_listed, hfields,
      hreferences, Nat.zero_add, Nat.add_zero]

/-- A line of a relation has the breaks of its names. -/
theorem breaks_relationLine (l : RelationLine) :
    breaks l.render = breaks l.name + breaks l.type + (breaks l.constraint +
      ((l.fields.map breaks).sum + (l.references.map breaks).sum)) := by
  have hconstraint : breaks ("\"" ++ l.constraint ++ "\"") = breaks l.constraint := by
    rw [breaks_append, breaks_append]
    exact Nat.zero_add _
  rw [l.render_eq]
  simp only [breaks_append _ _, breaks_mark]
  rw [breaks_intercalate rfl, List.map_cons, List.sum_cons, hconstraint, sum_breaks_lists]
  rfl

variable {r : OneRelation} (h : ∀ name ∈ r.writtenNames, breaks name = 0)

include h

theorem unbroken_names :
    breaks r.declaredName = 0 ∧ breaks r.fieldName = 0 ∧ breaks r.sourceModel = 0 ∧
      breaks r.referenceModel = 0 ∧ (∀ name, r.relationName = some name → breaks name = 0) ∧
      (r.sourceFields.map breaks).sum = 0 ∧ (r.referenceFields.map breaks).sum = 0 := by
  simp only [OneRelation.writtenNames, List.forall_mem_cons, List.forall_mem_append,
    Option.mem_toList] at h
  obtain ⟨hdeclared, hfield, hsource, hreference, ⟨hname, hfields⟩, hreferences⟩ := h
  exact ⟨hdeclared, hfield, hsource, hreference, hname, Text.sum_breaks_eq_zero hfields,
    Text.sum_breaks_eq_zero hreferences⟩

theorem breaks_constraintName : breaks r.constraintName = 0 := by
  obtain ⟨-, -, hsource, hreference, hname, -⟩ := unbroken_names h
  unfold OneRelation.constraintName
  cases hr : r.relationName with
  | none =>
    show breaks (r.referenceModel ++ "_" ++ r.sourceModel) = 0
    rw [breaks_append, breaks_append, hsource, hreference]
    rfl
  | some name => exact hname name hr

theorem breaks_outboundLine : breaks (outboundLine r).render = 0 := by
  obtain ⟨-, hfield, -, hreference, -, hfields, hreferences⟩ := unbroken_names h
  have hlisted : ((outboundLine r).references.map breaks).sum = 0 := by
    show ((if r.sourceFields.isEmpty then [] else r.referenceFields).map breaks).sum = 0
    split
    · rfl
    · exact hreferences
  rw [breaks_relationLine, hlisted]
  show breaks r.fieldName + breaks r.referenceModel + (breaks r.constraintName +
    ((r.sourceFields.map breaks).sum + 0)) = 0
  rw [hfield, hreference, breaks_constraintName h, hfields]

theorem breaks_inboundName (used : List String) : breaks (inboundName used r) = 0 := by
  obtain ⟨hdeclared, -, hsource, -⟩ := unbroken_names h
  unfold inboundName
  split
  · show breaks (r.sourceModel ++ "_" ++ r.declaredName) = 0
    rw [breaks_append, breaks_append, hsource, hdeclared]
    rfl
  · exact hsource

theorem breaks_inboundLine {name : String} (hname : breaks name = 0) :
    breaks (RelationLine.inbound name r.sourceModel r.constraintName).render = 0 := by
  obtain ⟨-, -, hsource, -⟩ := unbroken_names h
  rw [breaks_relationLine]
  show breaks name + breaks r.sourceModel + (breaks r.constraintName + 0) = 0
  rw [hname, hsource, breaks_constraintName h]

omit h in
theorem breaks_relationLines {rs : List Relation}
    (hall : ∀ r, .one r ∈ rs → ∀ name ∈ r.writtenNames, breaks name = 0) (used : List String) :
    ∀ l ∈ relationLines used rs, breaks l.render = 0 := by
  -- On the relations, with any names used before: the name of an inverse field depends on them, but
  -- it is made of unbroken names either way.
  induction rs generalizing used with
  | nil => exact fun _ hl => absurd hl List.not_mem_nil
  | cons x rs ih =>
    have hrest (used : List String) : ∀ l ∈ relationLines used rs, breaks l.render = 0 :=
      ih (fun r hr => hall r (List.mem_cons_of_mem x hr)) used
    cases x with
    | many r => exact hrest used
    | one r =>
      have hr := hall r List.mem_cons_self
      rw [relationLines]
      cases r.direction with
      | out => exact List.forall_mem_cons.mpr ⟨breaks_outboundLine hr, hrest _⟩
      | inbound =>
        exact List.forall_mem_cons.mpr
          ⟨breaks_inboundLine hr (breaks_inboundName hr used), hrest _⟩

end Relations

namespace ModelBlock

/-- A section as single lines. -/
def sectionLines (title : String) (texts : List String) : List (List String) :=
  if texts.isEmpty then [] else [(title :: texts).map fun t => "  " ++ t]

/-- The sections of a block as single lines. -/
def lineSections (b : ModelBlock) : List (List String) :=
  sectionLines "//> Definition" (b.columns.map (·.render)) ++
  sectionLines "//> Relations" (b.relations.map (·.render)) ++
  sectionLines "//> Constraints & indexes" (b.indexes.map (·.render))

/-- A line for all that a block has: its head, the titles and fields of its sections with an
empty line between two sections, and the closing brace. -/
def lineTexts (b : ModelBlock) : List String :=
  ("model " ++ b.name ++ " \x7b") :: ([""].intercalate b.lineSections ++ ["\x7d"])

theorem sectionText_eq (title : String) (texts : List String) :
    sectionText title texts = (sectionLines title texts).map Text.ended := by
  unfold sectionText sectionLines
  split
  · rfl
  · rw [List.map_singleton, Text.ended, List.map_map]
    rfl

theorem sections_eq (b : ModelBlock) : b.sections = b.lineSections.map Text.ended := by
  rw [sections, sectionText_eq, sectionText_eq, sectionText_eq, lineSections, List.map_append,
    List.map_append]

theorem lines_render (b : ModelBlock) : Text.lines b.render = b.lineTexts.flatMap Text.lines := by
  have hrender : b.render =
      Text.ended (("model " ++ b.name ++ " \x7b") :: [""].intercalate b.lineSections) ++
        "\x7d" := by
    -- Each section ends with a line break, so what stands between two of them makes an empty line.
    rw [render, sections_eq, Text.intercalate_ended, Text.ended_cons]
    simp only [String.append_assoc]
    rfl
  rw [hrender, Text.lines_ended_append, lineTexts, List.flatMap_cons, List.flatMap_cons,
    List.flatMap_append, List.append_assoc]
  rfl

/-- The empty lines between the sections are one fewer than these. -/
theorem intercalate_perm (parts : List (List String)) :
    ([""].intercalate parts).Perm (parts.flatten ++ List.replicate (parts.length - 1) "") := by
  induction parts with
  | nil => exact List.Perm.refl _
  | cons part parts ih =>
    cases parts with
    | nil => simp
    | cons next parts =>
      rw [List.intercalate_cons_cons, List.append_assoc, List.flatten_cons, List.append_assoc]
      refine List.Perm.append_left part ?_
      exact (ih.cons "").trans List.perm_middle.symm

theorem length_flatten_sectionLines (title : String) (texts : List String) :
    (sectionLines title texts).flatten.length =
      texts.length + (sectionLines title texts).length := by
  cases texts <;> simp [sectionLines]

theorem length_lineTexts (b : ModelBlock) :
    b.lineTexts.length = b.columns.length + b.relations.length + b.indexes.length +
      (b.sections.length + (b.sections.length - 1) + 2) := by
  rw [lineTexts, List.length_cons, List.length_append, (intercalate_perm _).length_eq,
    List.length_append, List.length_replicate, sections_eq, List.length_map]
  have hflatten : b.lineSections.flatten.length =
      b.columns.length + b.relations.length + b.indexes.length + b.lineSections.length := by
    simp only [lineSections, List.flatten_append, List.length_append, length_flatten_sectionLines,
      List.length_map]
    omega
  rw [hflatten, List.length_singleton]
  omega

theorem sum_breaks_sectionLines (title : String) (htitle : breaks title = 0)
    (texts : List String) :
    ((sectionLines title texts).flatten.map breaks).sum = (texts.map breaks).sum := by
  have hindented (t : String) : breaks ("  " ++ t) = breaks t := by
    rw [breaks_append]
    exact Nat.zero_add _
  cases texts with
  | nil => rfl
  | cons t texts =>
    simp only [sectionLines, List.isEmpty_cons, Bool.false_eq_true, if_false,
      List.flatten_singleton, List.map_map, Function.comp_def, hindented, List.map_cons,
      List.sum_cons, htitle, Nat.zero_add]

/-- Only the name and the fields of a block can have line breaks. -/
theorem sum_breaks_lineTexts (b : ModelBlock) :
    (b.lineTexts.map breaks).sum = breaks b.name +
      ((b.columns.map fun l => breaks l.render).sum +
        (b.relations.map fun l => breaks l.render).sum +
        (b.indexes.map fun l => breaks l.render).sum) := by
  have hempty (n : Nat) : ((List.replicate n "").map breaks).sum = 0 := by
    rw [List.map_replicate, List.sum_replicate]
    exact Nat.mul_zero n
  have hhead : breaks ("model " ++ b.name ++ " \x7b") = breaks b.name := by
    rw [breaks_append, breaks_append]
    exact Nat.zero_add _
  -- The order of the lines does not matter for the sum, and the empty ones add nothing to it.
  have hsections := ((intercalate_perm b.lineSections).map breaks).sum_nat
  rw [List.map_append, List.sum_append, hempty, Nat.add_zero] at hsections
  rw [lineTexts, List.map_cons, List.sum_cons, hhead, List.map_append, List.sum_append, hsections,
    lineSections, List.flatten_append, List.flatten_append, List.map_append, List.map_append,
    List.sum_append, List.sum_append, sum_breaks_sectionLines _ rfl, sum_breaks_sectionLines _ rfl,
    sum_breaks_sectionLines _ rfl, List.map_map, List.map_map, List.map_map]
  rfl

end ModelBlock

theorem length_relationLines (used : List String) (rs : List Relation) :
    (relationLines used rs).length = rs.countP Relation.isOne := by
  rw [← List.countP_true, countP_relationLines (fun _ => rfl)]
  exact List.countP_congr fun x _ => by cases x <;> rfl

theorem breaks_indexLine {i : Index} (h : ∀ name ∈ i.fields, breaks name = 0) :
    breaks (IndexLine.render ⟨i.isUnique, i.fields⟩) = 0 := by
  have hlabel : breaks (if i.isUnique then "@@unique" else "@@index") = 0 := by
    cases i.isUnique <;> rfl
  rw [IndexLine.render, breaks_append, breaks_append, breaks_listed, Text.sum_breaks_eq_zero h,
    hlabel]
  rfl

theorem sum_breaks_modelBlock {m : Model} (h : ∀ name ∈ m.writtenNames, breaks name = 0) :
    ((modelBlock m).lineTexts.map breaks).sum = (m.columns.map defaultBreaks).sum := by
  simp only [Model.writtenNames, List.forall_mem_cons, List.forall_mem_append,
    List.forall_mem_flatMap] at h
  obtain ⟨hname, ⟨hcolumns, hrelations⟩, hindexes⟩ := h
  have hcolumnLines : m.columns.map (fun c => breaks (columnLine c).render) =
      m.columns.map defaultBreaks :=
    List.map_congr_left fun c hc => breaks_columnLine (hcolumns c hc)
  have hrelationLines : ((modelBlock m).relations.map fun l => breaks l.render).sum = 0 := by
    rw [List.sum_eq_zero_iff_forall_eq_nat, List.forall_mem_map]
    exact breaks_relationLines
      (fun r hr => hrelations r (List.mem_filterMap.mpr ⟨_, hr, rfl⟩)) _
  have hindexLines : ((modelBlock m).indexes.map fun l => breaks l.render).sum = 0 := by
    rw [List.sum_eq_zero_iff_forall_eq_nat, List.forall_mem_map]
    exact List.forall_mem_map.mpr fun i hi => breaks_indexLine (hindexes i hi)
  rw [ModelBlock.sum_breaks_lineTexts, hrelationLines, hindexLines]
  show breaks m.canonicalName + ((m.columns.map columnLine).map _).sum = _
  rw [hname, List.map_map, Nat.zero_add]
  exact congrArg List.sum hcolumnLines

/-- If no name has a line break, the block of a model has a line for each column, each relation to
one row and each index, besides its head, the titles of its sections, the empty lines between
them and the closing brace, and one more for each line break of a text that is written as a
default. The lines are those exactly if there is no such break. -/
theorem lines_modelBlock {m : Model} (h : ∀ name ∈ m.writtenNames, '\n' ∉ name.toList) :
    (modelBlock m).lineTexts.length =
        m.columns.length + m.relations.countP Relation.isOne + m.indexes.length +
          ((modelBlock m).sections.length + ((modelBlock m).sections.length - 1) + 2) ∧
      (Text.lines (modelBlock m).render).length =
        (modelBlock m).lineTexts.length + (m.columns.map defaultBreaks).sum ∧
      (Text.lines (modelBlock m).render = (modelBlock m).lineTexts ↔
        ∀ c ∈ m.columns, ∀ text, writtenDefault? c = some (.text text) →
          '\n' ∉ text.toList) := by
  have hbreaks := sum_breaks_modelBlock fun name hn => Text.breaks_eq_zero_iff.mpr (h name hn)
  refine ⟨?_, ?_, ?_⟩
  · rw [ModelBlock.length_lineTexts]
    simp only [modelBlock, List.length_map, length_relationLines]
  · rw [ModelBlock.lines_render, Text.length_flatMap_lines, hbreaks]
  · rw [ModelBlock.lines_render, Text.flatMap_lines_eq_iff, hbreaks,
      List.sum_eq_zero_iff_forall_eq_nat]
    simp only [List.forall_mem_map]
    refine forall₂_congr fun c _ => ?_
    unfold defaultBreaks
    cases writtenDefault? c with
    | none => simp
    | some v => cases v <;> simp [Text.breaks_eq_zero_iff]

/-- A model with one default over two lines. -/
def notes : Model where
  canonicalName := "Note"
  binding := "notes"
  columns := [
    { Column.ofType "id" "id" .text with
      isPrimary := true, hasDefault := true, hasGeneratedId := true },
    { Column.ofType "body" "body" .text with
      hasDefault := true, defaultValue := some (.text "first\nsecond") }]
  relations := [.one ⟨"author", "author", none, "Note", "User", ["authorId"], ["id"], false, .out⟩]
  indexes := [⟨.normal, "by_author", ["authorId"]⟩]

theorem lines_modelBlock_notes :
    (modelBlock notes).lineTexts.length = 11 ∧
      (Text.lines (modelBlock notes).render).length = 12 := by
  obtain ⟨hmeant, hlines, -⟩ := lines_modelBlock (m := notes) (by decide)
  have hdefaults : (notes.columns.map defaultBreaks).sum = 1 := by decide
  rw [hmeant] at hlines
  rw [hmeant, hlines, hdefaults]
  exact ⟨rfl, rfl⟩

/-- A default can break the line of its column, whatever the names are. -/
theorem not_lines_modelBlock :
    ¬∀ m : Model, (∀ name ∈ m.writtenNames, '\n' ∉ name.toList) →
      (Text.lines (modelBlock m).render).length =
        m.columns.length + m.relations.countP Relation.isOne + m.indexes.length +
          ((modelBlock m).sections.length + ((modelBlock m).sections.length - 1) + 2) := by
  intro hall
  have hnames : ∀ name ∈ notes.writtenNames, '\n' ∉ name.toList := by decide
  have hlines := hall notes hnames
  rw [ModelBlock.lines_render, Text.length_flatMap_lines, ModelBlock.length_lineTexts,
    sum_breaks_modelBlock fun name hn => Text.breaks_eq_zero_iff.mpr (hnames name hn)] at hlines
  -- What is left to compare is a sum with one and without it.
  exact absurd hlines (by decide)

end Prisma
end Schemata
