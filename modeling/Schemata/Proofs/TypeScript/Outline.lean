import Schemata.Proofs.TypeScript.Entries
/-!
# What a text says by its lines

The types that a text exports stand in paragraphs of their own, and the names in them on lines of
fixed forms. So a text has an outline that is read off its lines, and no paragraph of one kind is
taken for one of another.
-/

namespace Schemata.TypeScript

open Text (LineForm breaks)

/-- The names in the type of a model. -/
structure ModelOutline where
  name : String
  /-- The keys of the columns. -/
  columns : List String
  /-- What is written for the enum of each column. -/
  enumNames : List String
  sources : List String
  references : List String
deriving DecidableEq

/-- The names in the types of a text. -/
@[ext]
structure Outline where
  models : List ModelOutline
  /-- What the types of enums have for their names. -/
  enumNames : List String
  /-- The types of models that are exported, wherever that is. -/
  modelExports : List String
  enumExports : List String
  /-- What is listed as all models, each time that there is such a list. -/
  allModels : List (List String)
  allEnums : List (List String)

/-- The outline of a paragraph that exports the type of a model. -/
def ModelOutline.ofLines? : List String → Option ModelOutline
  | [] => none
  | head :: body => (modelForm.name? head).map fun name =>
    { name
      columns := columnForm.names body
      enumNames := enumNameForm.names body
      sources := sourceForm.names body
      references := referenceForm.names body }

/-- The outline that the type of a model is written for. -/
def ModelOutline.ofEntry (m : ModelEntry) : ModelOutline where
  name := m.name
  columns := m.columns.map (·.fieldName)
  enumNames := m.columns.map fun c => (c.enumName.map Text.quote).getD "undefined"
  sources := m.relations.map (·.source)
  references := m.relations.map (·.reference)

/-- What a paragraph that exports the type of an enum has for its name. -/
def enumName? : List String → Option String
  | [] => none
  | head :: body => (enumForm.name? head).bind fun _ => (nameForm.names body).head?

/-- The types that list types. -/
def listNames : List String := ["__AllModels", "__AllEnums"]

/-- How a type that lists types begins. -/
def listingHeads (name : String) : List String :=
  ["export type " ++ name ++ " = \x7b", "export type " ++ name ++ " = \x7b\x7d;"]

/-- The lines between the braces of a type that lists types. -/
def members? (name : String) : List String → Option (List String)
  | [] => none
  | head :: body => if head ∈ listingHeads name then some body.dropLast else none

/-- The line that lists a type under a key. -/
def memberLine (member : String × String) : String :=
  "    " ++ member.1 ++ ": " ++ member.2 ++ ";"

namespace Outline

/-- The outline of a text, read off its lines. -/
def ofText (text : String) : Outline where
  models := (Text.paragraphs text).filterMap ModelOutline.ofLines?
  enumNames := (Text.paragraphs text).filterMap enumName?
  modelExports := modelForm.names (Text.lines text)
  enumExports := enumForm.names (Text.lines text)
  allModels := (Text.paragraphs text).filterMap (members? "__AllModels")
  allEnums := (Text.paragraphs text).filterMap (members? "__AllEnums")

/-- The outline that a document is written for. -/
def ofDocument (d : Document) : Outline where
  models := d.models.map .ofEntry
  enumNames := d.enums.map fun e => Text.quote e.name
  modelExports := d.models.map (·.name)
  enumExports := d.enums.map (·.exportName)
  allModels := [d.allModels.map memberLine]
  allEnums := [d.allEnums.map memberLine]

end Outline

section Paragraphs

/-! Each paragraph gives what its type has, and nothing else. -/

theorem ModelOutline.ofLines?_modelLines (m : ModelEntry) :
    ofLines? m.lines = some (ofEntry m) := by
  have hforms : ∀ f ∈ [columnForm, enumNameForm, sourceForm, referenceForm], f ∈ outlineForms := by
    simp [outlineForms]
  simp only [List.forall_mem_cons] at hforms
  -- Two of the forms occur once in each column, the other two once in each relation.
  obtain ⟨hcolumn, henum, hsource, hreference, -⟩ := hforms
  rw [m.lines_cons, ofLines?, LineForm.name?_line, Option.map_some,
    ModelEntry.names_columns hcolumn (fun _ => rfl) fun _ => rfl,
    ModelEntry.names_columns henum (fun _ => rfl) fun _ => rfl,
    ModelEntry.names_relations hsource (fun _ => rfl) fun _ => rfl,
    ModelEntry.names_relations hreference (fun _ => rfl) fun _ => rfl]
  rfl

theorem ModelOutline.ofLines?_enumLines (e : EnumEntry) : ofLines? e.lines = none := by
  have hapart : modelForm.Apart enumForm := by decide +kernel
  rw [e.lines_cons, ofLines?, LineForm.name?_line_of_apart hapart, Option.map_none]

theorem enumName?_enumLines (e : EnumEntry) : enumName? e.lines = some (Text.quote e.name) := by
  rw [e.lines_cons, enumName?, LineForm.name?_line, Option.bind_some, e.names_body]
  rfl

theorem enumName?_modelLines (m : ModelEntry) : enumName? m.lines = none := by
  have hapart : enumForm.Apart modelForm := by decide +kernel
  rw [m.lines_cons, enumName?, LineForm.name?_line_of_apart hapart, Option.bind_none]

theorem exists_listing (name : String) (members : List (String × String)) :
    ∃ head body, listing name members = head :: body ∧ head ∈ listingHeads name ∧
      body.dropLast = members.map memberLine ∧
      ∀ line ∈ body, line ∈ members.map memberLine ∨ line = "\x7d;" := by
  -- The first line is put together with its indentation, which is empty here.
  have hbegin (opening : String) : "" ++ s!"export type {name} = " ++ opening =
      "export type " ++ name ++ (" = " ++ opening) := by
    rw [String.empty_append, ← String.append_assoc]
    rfl
  unfold listing
  rw [braces, hbegin, hbegin, String.append_assoc, String.append_assoc]
  cases members with
  | nil =>
    refine ⟨_, [], rfl, List.mem_cons_of_mem _ List.mem_cons_self, rfl, fun line hline => ?_⟩
    exact absurd hline List.not_mem_nil
  | cons member members =>
    refine ⟨_, _, rfl, List.mem_cons_self, List.dropLast_concat, fun line hline => ?_⟩
    exact (List.mem_append.mp hline).imp id List.mem_singleton.mp

/-- The forms of the lines that begin the types of models and of enums. -/
def typeForms : List LineForm := [modelForm, enumForm]

/-- A line that begins no type of a model, none of an enum and no list of types. -/
structure Silent (line : String) : Prop where
  types : ∀ f ∈ typeForms, f.name? line = none
  lists : ∀ name ∈ listNames, line ∉ listingHeads name

theorem baseTypes_silent : ∀ line ∈ baseTypes, breaks line = 0 ∧ Silent line := by
  have hall : (baseTypes.all fun line => line.toList.count '\n' = 0 &&
      typeForms.all fun f => (f.name? line).isNone) = true := by
    simp only [baseTypes, typeForms, List.all_cons, List.all_nil, LineForm.name?, modelForm,
      enumForm]
    -- As with the forms of entries, literals are opened to their characters first.
    repeat rw [String.toList_ofList]
    decide +kernel
  have hlists : ∀ line ∈ baseTypes, ∀ name ∈ listNames, line ∉ listingHeads name := by
    decide +kernel
  intro line hline
  have hforms := List.all_eq_true.mp hall line hline
  simp only [Bool.and_eq_true, decide_eq_true_eq, List.all_eq_true,
    Option.isNone_iff_eq_none] at hforms
  exact ⟨hforms.1, hforms.2, hlists line hline⟩

/-- The first line of a list begins no type of a model or of an enum, and no other list. -/
theorem listingHeads_apart : ∀ name ∈ listNames, ∀ head ∈ listingHeads name,
    head ≠ "" ∧ breaks head = 0 ∧ (∀ f ∈ typeForms, f.name? head = none) ∧
      ∀ other ∈ listNames, other ≠ name → head ∉ listingHeads other := by
  decide +kernel

end Paragraphs

section Listings

variable {name : String}

theorem memberLine_eq (member : String × String) :
    memberLine member = (⟨"    ", ";"⟩ : LineForm).line (member.1 ++ ": " ++ member.2) := by
  simp only [memberLine, LineForm.line, String.append_assoc]

theorem members?_listing (name : String) (members : List (String × String)) :
    members? name (listing name members) = some (members.map memberLine) := by
  obtain ⟨head, body, hlisting, hhead, hbody, -⟩ := exists_listing name members
  rw [hlisting, members?, if_pos hhead, hbody]

theorem members?_listing_of_ne {other : String} (hname : name ∈ listNames)
    (hother : other ∈ listNames) (hne : other ≠ name) (members : List (String × String)) :
    members? other (listing name members) = none := by
  obtain ⟨head, body, hlisting, hhead, -⟩ := exists_listing name members
  obtain ⟨-, -, -, hothers⟩ := listingHeads_apart name hname head hhead
  rw [hlisting, members?, if_neg (hothers other hother hne)]

theorem ofLines?_listing (hname : name ∈ listNames) (members : List (String × String)) :
    ModelOutline.ofLines? (listing name members) = none := by
  obtain ⟨head, body, hlisting, hhead, -⟩ := exists_listing name members
  rw [hlisting, ModelOutline.ofLines?,
    (listingHeads_apart name hname head hhead).2.2.1 modelForm (by decide), Option.map_none]

theorem enumName?_listing (hname : name ∈ listNames) (members : List (String × String)) :
    enumName? (listing name members) = none := by
  obtain ⟨head, body, hlisting, hhead, -⟩ := exists_listing name members
  rw [hlisting, enumName?,
    (listingHeads_apart name hname head hhead).2.2.1 enumForm (by decide), Option.bind_none]

/-- The type of a model or of an enum is no list of types. -/
theorem members?_line {f : LineForm} (hf : f ∈ typeForms) (hname : name ∈ listNames)
    (type : String) (body : List String) : members? name (f.line type :: body) = none := by
  refine if_neg fun hhead => ?_
  have hnone := (listingHeads_apart name hname _ hhead).2.2.1 f hf
  rw [LineForm.name?_line] at hnone
  cases hnone

/-- What holds of the first line of a list and of the lines of its members holds of all lines. -/
theorem forall_mem_listing {p : String → Prop} (members : List (String × String))
    (hhead : ∀ head ∈ listingHeads name, p head)
    (hmembers : ∀ member ∈ members, p (memberLine member)) (hend : p "\x7d;") :
    ∀ line ∈ listing name members, p line := by
  obtain ⟨head, body, hlisting, hmem, -, hbody⟩ := exists_listing name members
  rw [hlisting, List.forall_mem_cons]
  refine ⟨hhead head hmem, fun line hline => ?_⟩
  obtain hline | rfl := hbody line hline
  · exact List.forall_mem_map.mpr hmembers line hline
  · exact hend

theorem names_listing {f : LineForm} (hf : f ∈ typeForms) (hname : name ∈ listNames)
    (members : List (String × String)) : f.names (listing name members) = [] := by
  -- Members are indented, and what begins the type of a model or of an enum is not.
  have hfixed : ∀ f ∈ typeForms, f.Apart ⟨"    ", ";"⟩ ∧ f.name? "\x7d;" = none := by
    decide +kernel
  obtain ⟨hmember, hend⟩ := hfixed f hf
  refine List.filterMap_eq_nil_iff.mpr (forall_mem_listing members ?_ ?_ hend)
  · exact fun head hhead => (listingHeads_apart name hname head hhead).2.2.1 f hf
  · intro member _
    rw [memberLine_eq]
    exact LineForm.name?_line_of_apart hmember _

theorem empty_not_mem_listing (hname : name ∈ listNames) (members : List (String × String)) :
    "" ∉ listing name members := by
  have hlines : ∀ line ∈ listing name members, line ≠ "" := by
    refine forall_mem_listing members ?_ ?_ (by decide)
    · exact fun head hhead => (listingHeads_apart name hname head hhead).1
    · intro member _
      rw [memberLine_eq]
      exact LineForm.line_ne_empty (by decide) _
  exact fun hempty => hlines "" hempty rfl

theorem breaks_listing (hname : name ∈ listNames) {members : List (String × String)}
    (h : ∀ member ∈ members, breaks member.1 = 0 ∧ breaks member.2 = 0) :
    ∀ line ∈ listing name members, breaks line = 0 := by
  refine forall_mem_listing members ?_ ?_ rfl
  · exact fun head hhead => (listingHeads_apart name hname head hhead).2.1
  · intro member hmember
    obtain ⟨hkey, htype⟩ := h member hmember
    simp only [memberLine, Text.breaks_append, hkey, htype]
    rfl

end Listings

end Schemata.TypeScript
