import Schemata.Proofs.Text.Forms
import Schemata.TypeScript.Document
/-!
# The lines of entries

Each line of the type of an enum or of a model has a form, and what it is written around. No two
of the forms that names are read from are taken for one another (`apart_of_mem`), so the lines of a
form give back the names that have been written.
-/

namespace Schemata.TypeScript

open Text (LineForm breaks)

section Forms

def modelForm : LineForm := ⟨"export type ", " = __CreateModel<\x7b"⟩

def enumForm : LineForm := ⟨"export type ", " = __CreateEnum<\x7b"⟩

def nameForm : LineForm := ⟨"    name: ", ";"⟩

def columnForm : LineForm := ⟨"        ", ": __CreateColumn<\x7b"⟩

def enumNameForm : LineForm := ⟨"            enumName: ", ";"⟩

def sourceForm : LineForm := ⟨"            source: ", ";"⟩

def referenceForm : LineForm := ⟨"            reference: ", ";"⟩

def EnumEntry.forms : List LineForm :=
  [enumForm, nameForm, ⟨"    values: [", "];"⟩, ⟨"\x7d>", ";"⟩]

def ColumnEntry.forms : List LineForm := [
  columnForm,
  ⟨"            alias: ", ";"⟩,
  ⟨"            name: ", ";"⟩,
  ⟨"            type: \"", "\";"⟩,
  ⟨"            isNullable: ", ";"⟩,
  ⟨"            isHasDefault: ", ";"⟩,
  ⟨"            isPrimary: ", ";"⟩,
  ⟨"            isUnique: ", ";"⟩,
  enumNameForm,
  ⟨"        \x7d>", ";"⟩]

def RelationEntry.forms : List LineForm := [
  ⟨"        ", ": __CreateRelation<\x7b"⟩,
  ⟨"            type: \"", "\";"⟩,
  ⟨"            kind: \"", "\";"⟩,
  sourceForm,
  referenceForm,
  ⟨"            sourceFields: [", "];"⟩,
  ⟨"            referenceFields: [", "];"⟩,
  ⟨"        \x7d>", ";"⟩]

/-- The forms of the lines around entries in braces. -/
def braceForms (indent label : String) : List LineForm :=
  [⟨indent ++ label ++ "\x7b\x7d", ";"⟩, ⟨indent ++ label, "\x7b"⟩, ⟨indent ++ "\x7d", ";"⟩]

/-- The forms of the lines that a model has behind the first one, besides those of its entries. -/
def ModelEntry.forms : List LineForm :=
  nameForm :: (braceForms "    " "columns: " ++ (braceForms "    " "relations: " ++
    [⟨"    indexes: \x7b\x7d", ";"⟩, ⟨"\x7d>", ";"⟩]))

def entryForms : List LineForm :=
  modelForm :: (EnumEntry.forms ++ ModelEntry.forms ++ ColumnEntry.forms ++ RelationEntry.forms)

/-- The forms of the lines that names are read from, wherever they stand in a document. -/
def outlineForms : List LineForm :=
  [modelForm, enumForm, columnForm, enumNameForm, sourceForm, referenceForm]

theorem apart_of_mem : ∀ f ∈ outlineForms, ∀ g ∈ entryForms, g = f ∨ f.Apart g := by
  decide +kernel

theorem entryForms_unbroken :
    ∀ f ∈ entryForms, f.head ≠ "" ∧ breaks f.head = 0 ∧ breaks f.tail = 0 := by
  have hall : (entryForms.all fun f =>
      f.head ≠ "" && (f.head.toList.count '\n' = 0 && f.tail.toList.count '\n' = 0)) = true := by
    simp only [entryForms, EnumEntry.forms, ModelEntry.forms, ColumnEntry.forms,
      RelationEntry.forms, braceForms, modelForm, enumForm, nameForm, columnForm, enumNameForm,
      sourceForm, referenceForm, List.cons_append, List.nil_append, List.all_cons, List.all_nil]
    -- The characters of a literal are at hand, and need not be decoded from its bytes.
    repeat rw [String.toList_ofList]
    decide +kernel
  simpa [breaks] using hall

end Forms

section Parts

/-! What the lines of an entry are written around. -/

def EnumEntry.texts (e : EnumEntry) : List String :=
  [e.exportName, Text.quote e.name, Text.quotedList e.values, ""]

def ColumnEntry.texts (c : ColumnEntry) : List String :=
  [c.fieldName, Text.quote c.fieldName, Text.quote c.name, c.type, toString c.isNullable,
    toString c.hasDefault, toString c.isPrimary, toString c.isUnique,
    (c.enumName.map Text.quote).getD "undefined", ""]

def RelationEntry.texts (r : RelationEntry) : List String :=
  [r.fieldName, "one", r.direction, r.source, r.reference, Text.quotedList r.sourceFields,
    Text.quotedList r.referenceFields, ""]

def EnumEntry.parts (e : EnumEntry) : List (LineForm × String) := EnumEntry.forms.zip e.texts

def ColumnEntry.parts (c : ColumnEntry) : List (LineForm × String) := ColumnEntry.forms.zip c.texts

def RelationEntry.parts (r : RelationEntry) : List (LineForm × String) :=
  RelationEntry.forms.zip r.texts

/-- Entries in braces behind a label, all at an indentation. -/
def braceParts (indent label : String) (parts : List (LineForm × String)) :
    List (LineForm × String) :=
  if parts.isEmpty then [(⟨indent ++ label ++ "\x7b\x7d", ";"⟩, "")]
  else (⟨indent ++ label, "\x7b"⟩, "") :: parts ++ [(⟨indent ++ "\x7d", ";"⟩, "")]

/-- The lines of a model behind the first one. -/
def ModelEntry.bodyParts (m : ModelEntry) : List (LineForm × String) :=
  (nameForm, Text.quote m.name) ::
    (braceParts "    " "columns: " (m.columns.flatMap (·.parts)) ++
      (braceParts "    " "relations: " (m.relations.flatMap (·.parts)) ++
        [(⟨"    indexes: \x7b\x7d", ";"⟩, ""), (⟨"\x7d>", ";"⟩, "")]))

theorem EnumEntry.lines_eq (e : EnumEntry) : e.lines = LineForm.written e.parts :=
  congrArg (· :: _) String.append_assoc

theorem ColumnEntry.lines_eq (c : ColumnEntry) : c.lines = LineForm.written c.parts :=
  congrArg (· :: _) String.append_assoc

theorem RelationEntry.lines_eq (r : RelationEntry) : r.lines = LineForm.written r.parts :=
  congrArg (· :: _) String.append_assoc

theorem written_braceParts (indent label : String) (parts : List (LineForm × String)) :
    LineForm.written (braceParts indent label parts) =
      braces indent label (LineForm.written parts) ";" := by
  cases parts <;> simp [braceParts, braces, LineForm.written, LineForm.line, String.append_assoc]

theorem ModelEntry.lines_eq (m : ModelEntry) :
    m.lines = LineForm.written ((modelForm, m.name) :: m.bodyParts) := by
  have hhead : s!"export type {m.name} = __CreateModel<" ++ "\x7b" = modelForm.line m.name :=
    String.append_assoc
  have hcolumns : m.columns.flatMap (·.lines) =
      LineForm.written (m.columns.flatMap (·.parts)) := by
    rw [LineForm.written_flatMap]
    exact List.flatMap_congr fun c _ => c.lines_eq
  have hrelations : m.relations.flatMap (·.lines) =
      LineForm.written (m.relations.flatMap (·.parts)) := by
    rw [LineForm.written_flatMap]
    exact List.flatMap_congr fun r _ => r.lines_eq
  -- Braces around lines are written as braces around their parts.
  rw [lines, hhead, hcolumns, hrelations, bodyParts]
  simp only [LineForm.written_cons, LineForm.written_append, written_braceParts,
    List.append_assoc, List.cons_append]
  rfl

/-- The type of an enum begins with the line that exports it. -/
theorem EnumEntry.lines_cons (e : EnumEntry) :
    e.lines = enumForm.line e.exportName :: LineForm.written e.parts.tail :=
  e.lines_eq

theorem ModelEntry.lines_cons (m : ModelEntry) :
    m.lines = modelForm.line m.name :: LineForm.written m.bodyParts :=
  m.lines_eq

theorem forall_mem_braceParts {p : LineForm × String → Prop} {indent label : String}
    {parts : List (LineForm × String)} (hbraces : ∀ f ∈ braceForms indent label, p (f, ""))
    (hparts : ∀ part ∈ parts, p part) : ∀ part ∈ braceParts indent label parts, p part := by
  simp only [braceForms, List.forall_mem_cons] at hbraces
  obtain ⟨hempty, hopen, hclose, -⟩ := hbraces
  unfold braceParts
  split
  · exact List.forall_mem_singleton.mpr hempty
  · rw [List.cons_append, List.forall_mem_cons, List.forall_mem_append]
    exact ⟨hopen, hparts, List.forall_mem_singleton.mpr hclose⟩

/-- What holds of the lines around the entries and of those of the entries holds of all lines. -/
theorem ModelEntry.forall_mem_bodyParts {p : LineForm × String → Prop} {m : ModelEntry}
    (hname : p (nameForm, Text.quote m.name)) (hforms : ∀ f ∈ ModelEntry.forms, p (f, ""))
    (hcolumns : ∀ c ∈ m.columns, ∀ part ∈ c.parts, p part)
    (hrelations : ∀ r ∈ m.relations, ∀ part ∈ r.parts, p part) : ∀ part ∈ m.bodyParts, p part := by
  rw [ModelEntry.forms, List.forall_mem_cons, List.forall_mem_append, List.forall_mem_append,
    List.forall_mem_cons, List.forall_mem_singleton] at hforms
  obtain ⟨-, hcolumnBraces, hrelationBraces, hindexes, hend⟩ := hforms
  rw [bodyParts, List.forall_mem_cons, List.forall_mem_append, List.forall_mem_append,
    List.forall_mem_cons, List.forall_mem_singleton]
  exact ⟨hname, forall_mem_braceParts hcolumnBraces (List.forall_mem_flatMap.mpr hcolumns),
    forall_mem_braceParts hrelationBraces (List.forall_mem_flatMap.mpr hrelations), hindexes, hend⟩

end Parts

section Lines

theorem EnumEntry.form_mem {e : EnumEntry} {part : LineForm × String} (hpart : part ∈ e.parts) :
    part.1 ∈ entryForms := by
  have hform : part.1 ∈ EnumEntry.forms := (List.of_mem_zip hpart).1
  simp only [entryForms, List.mem_cons, List.mem_append, hform, true_or, or_true]

theorem ModelEntry.form_mem (m : ModelEntry) : ∀ part ∈ m.bodyParts, part.1 ∈ entryForms := by
  simp only [entryForms, List.mem_cons, List.mem_append]
  apply forall_mem_bodyParts
  · exact .inr (.inl (.inl (.inr List.mem_cons_self)))
  · exact fun f hf => .inr (.inl (.inl (.inr hf)))
  · exact fun c _ part hpart => .inr (.inl (.inr (List.of_mem_zip hpart).1))
  · exact fun r _ part hpart => .inr (.inr (List.of_mem_zip hpart).1)

theorem EnumEntry.empty_not_mem_lines (e : EnumEntry) : "" ∉ e.lines := by
  rw [lines_eq]
  exact LineForm.empty_not_mem_written fun part hpart => (entryForms_unbroken _ (form_mem hpart)).1

theorem ModelEntry.empty_not_mem_lines (m : ModelEntry) : "" ∉ m.lines := by
  rw [lines_eq]
  refine LineForm.empty_not_mem_written (List.forall_mem_cons.mpr ⟨?_, fun part hpart => ?_⟩)
  · exact (entryForms_unbroken modelForm List.mem_cons_self).1
  · exact (entryForms_unbroken _ (m.form_mem part hpart)).1

theorem EnumEntry.breaks_lines {e : EnumEntry} (h : ∀ text ∈ e.texts, breaks text = 0) :
    ∀ line ∈ e.lines, breaks line = 0 := by
  rw [lines_eq]
  refine LineForm.breaks_written fun part hpart => ?_
  obtain ⟨-, hhead, htail⟩ := entryForms_unbroken _ (form_mem hpart)
  exact ⟨hhead, h _ (List.of_mem_zip hpart).2, htail⟩

theorem ModelEntry.breaks_lines {m : ModelEntry} (hname : breaks m.name = 0)
    (hcolumns : ∀ c ∈ m.columns, ∀ text ∈ c.texts, breaks text = 0)
    (hrelations : ∀ r ∈ m.relations, ∀ text ∈ r.texts, breaks text = 0) :
    ∀ line ∈ m.lines, breaks line = 0 := by
  have hbody : ∀ part ∈ m.bodyParts, breaks part.2 = 0 := by
    apply forall_mem_bodyParts
    · rwa [Text.breaks_quote]
    · exact fun _ _ => rfl
    · exact fun c hc part hpart => hcolumns c hc _ (List.of_mem_zip hpart).2
    · exact fun r hr part hpart => hrelations r hr _ (List.of_mem_zip hpart).2
  rw [lines_eq]
  refine LineForm.breaks_written (List.forall_mem_cons.mpr ⟨?_, fun part hpart => ?_⟩)
  · obtain ⟨-, hhead, htail⟩ := entryForms_unbroken modelForm List.mem_cons_self
    exact ⟨hhead, hname, htail⟩
  · obtain ⟨-, hhead, htail⟩ := entryForms_unbroken _ (m.form_mem part hpart)
    exact ⟨hhead, hbody part hpart, htail⟩

end Lines

section Names

variable {f : LineForm}

theorem pick_braceParts {indent label : String} (h : ∀ g ∈ braceForms indent label, g ≠ f)
    (parts : List (LineForm × String)) : f.pick (braceParts indent label parts) = f.pick parts := by
  simp only [braceForms, List.forall_mem_cons] at h
  obtain ⟨hempty, hopen, hclose, -⟩ := h
  unfold braceParts
  cases parts with
  | nil => exact LineForm.pick_cons_of_ne hempty _ _
  | cons part parts =>
    rw [List.isEmpty_cons, if_neg Bool.false_ne_true, List.cons_append,
      LineForm.pick_cons_of_ne hopen, LineForm.pick_append, LineForm.pick_cons_of_ne hclose]
    exact List.append_nil _

namespace ModelEntry

theorem names_body (hf : f ∈ outlineForms) (m : ModelEntry) :
    f.names (LineForm.written m.bodyParts) =
      m.columns.flatMap (fun c => f.pick c.parts) ++
        m.relations.flatMap fun r => f.pick r.parts := by
  -- The lines around the entries have forms of their own, so nothing is read from them.
  have hforms : ∀ f ∈ outlineForms, ∀ g ∈ ModelEntry.forms, g ≠ f := by decide +kernel
  replace hforms := hforms f hf
  simp only [ModelEntry.forms, List.forall_mem_cons, List.forall_mem_append] at hforms
  obtain ⟨hname, hcolumns, hrelations, hindexes, hend, -⟩ := hforms
  rw [LineForm.names_written fun part hpart => apart_of_mem f hf _ (m.form_mem part hpart),
    bodyParts, LineForm.pick_cons_of_ne hname, LineForm.pick_append, LineForm.pick_append,
    pick_braceParts hcolumns, pick_braceParts hrelations, LineForm.pick_cons_of_ne hindexes,
    LineForm.pick_cons_of_ne hend, LineForm.pick_flatMap, LineForm.pick_flatMap]
  exact congrArg _ (List.append_nil _)

/-- A form that one line of each column has, and no line of a relation. -/
theorem names_columns {text : ColumnEntry → String} (hf : f ∈ outlineForms)
    (hcolumn : ∀ c, f.pick c.parts = [text c])
    (hrelation : ∀ r : RelationEntry, f.pick r.parts = []) (m : ModelEntry) : f.names (LineForm.written m.bodyParts) = m.columns.map text := by
  rw [names_body hf, List.flatMap_eq_nil_iff.mpr fun r _ => hrelation r, List.append_nil,
    List.map_eq_flatMap]
  exact List.flatMap_congr fun c _ => hcolumn c

/-- A form that one line of each relation has, and no line of a column. -/
theorem names_relations {text : RelationEntry → String} (hf : f ∈ outlineForms)
    (hcolumn : ∀ c : ColumnEntry, f.pick c.parts = []) (hrelation : ∀ r, f.pick r.parts = [text r])
    (m : ModelEntry) : f.names (LineForm.written m.bodyParts) = m.relations.map text := by
  rw [names_body hf, List.flatMap_eq_nil_iff.mpr fun c _ => hcolumn c, List.nil_append,
    List.map_eq_flatMap]
  exact List.flatMap_congr fun r _ => hrelation r

/-- A form that no line of an entry has. -/
theorem names_none (hf : f ∈ outlineForms) (hcolumn : ∀ c : ColumnEntry, f.pick c.parts = [])
    (hrelation : ∀ r : RelationEntry, f.pick r.parts = []) (m : ModelEntry) :
    f.names (LineForm.written m.bodyParts) = [] := by
  rw [names_body hf, List.flatMap_eq_nil_iff.mpr fun c _ => hcolumn c,
    List.flatMap_eq_nil_iff.mpr fun r _ => hrelation r, List.append_nil]

theorem names_lines (m : ModelEntry) :
    modelForm.names m.lines = [m.name] ∧ enumForm.names m.lines = [] := by
  have hmodel : modelForm ∈ outlineForms := List.mem_cons_self
  have henum : enumForm ∈ outlineForms := List.mem_cons_of_mem _ List.mem_cons_self
  have hhead : enumForm.name? (modelForm.line m.name) = none :=
    LineForm.name?_line_of_apart (by decide +kernel) _
  rw [lines_cons, LineForm.names_cons_line, LineForm.names_cons_of_none hhead,
    names_none hmodel (fun _ => rfl) fun _ => rfl, names_none henum (fun _ => rfl) fun _ => rfl]
  exact ⟨rfl, rfl⟩

/-- Of the lines that breaks make out of the first line of a model, any can export a type. -/
theorem mem_names_flatMap_lines {m : ModelEntry} {name : String}
    (h : modelForm.line name ∈ Text.lines (modelForm.line m.name)) :
    name ∈ modelForm.names (m.lines.flatMap Text.lines) := by
  rw [m.lines_cons, List.flatMap_cons, LineForm.names_append]
  exact List.mem_append_left _ (List.mem_filterMap.mpr ⟨_, h, LineForm.name?_line _ _⟩)

end ModelEntry

theorem EnumEntry.names_lines (e : EnumEntry) :
    modelForm.names e.lines = [] ∧ enumForm.names e.lines = [e.exportName] := by
  have hmodel : modelForm ∈ outlineForms := List.mem_cons_self
  have henum : enumForm ∈ outlineForms := List.mem_cons_of_mem _ List.mem_cons_self
  rw [lines_eq, LineForm.names_written fun part hpart => apart_of_mem _ hmodel _ (form_mem hpart),
    LineForm.names_written fun part hpart => apart_of_mem _ henum _ (form_mem hpart)]
  exact ⟨rfl, rfl⟩

/-- Behind its first line the type of an enum has its name on one line. -/
theorem EnumEntry.names_body (e : EnumEntry) :
    nameForm.names (LineForm.written e.parts.tail) = [Text.quote e.name] := by
  -- This form is read in the types of enums only, and need not be told from those of models.
  have hapart : ∀ g ∈ EnumEntry.forms.tail, g = nameForm ∨ nameForm.Apart g := by decide +kernel
  show nameForm.names (LineForm.written (EnumEntry.forms.tail.zip e.texts.tail)) = _
  rw [LineForm.names_written fun part hpart => hapart part.1 (List.of_mem_zip hpart).1]
  rfl

end Names

end Schemata.TypeScript
