import Schemata.Proofs.Runs
import Schemata.Proofs.TypeScript.Outline
import Schemata.Schema.Validation
/-!
# Documents are read back

Behind the base types, the text of a document consists of blocks with empty lines between them.
If these have no line breaks, the outline of the text is the one that the document is written for
(`Outline.ofText_render`), and for the document of a schema it has the names of the schema
(`Outline.ofText_document`).
-/

namespace Schemata.TypeScript

open Text (LineForm breaks)

namespace Document

/-- The type of all entries. -/
def entriesBlock : List String :=
  ["export type __AllEntries = \x7b", "    models: __AllModels;", "    enums: __AllEnums;",
    "\x7d;"]

/-- The paragraphs of a document behind the base types; behind the last line break there is one
more. -/
def blocks (d : Document) : List (List String) :=
  d.enums.map (·.lines) ++ (d.models.map (·.lines) ++
    [listing "__AllModels" d.allModels, listing "__AllEnums" d.allEnums, entriesBlock, []])

/-- No line behind the base types has a break. -/
def Unbroken (d : Document) : Prop := ∀ block ∈ d.blocks, ∀ line ∈ block, breaks line = 0

variable {d : Document}

theorem lines_append_empty (d : Document) :
    d.lines ++ [""] = baseTypes ++ d.blocks.flatMap ("" :: ·) := by
  simp only [lines, blocks, entriesBlock, List.flatMap_append, List.flatMap_cons,
    List.flatMap_nil, List.flatMap_map, List.append_assoc, List.cons_append, List.nil_append]

theorem lines_render (d : Document) :
    Text.lines d.render =
      baseTypes ++ d.blocks.flatMap fun block => "" :: block.flatMap Text.lines := by
  have hbase : baseTypes.flatMap Text.lines = baseTypes :=
    Text.flatMap_lines_of_unbroken fun line hline => (baseTypes_silent line hline).1
  -- The last line break leaves an empty line behind it.
  have hempty : Text.lines "" = [""] := Text.lines_eq_singleton rfl
  have hrender : d.render = Text.ended d.lines ++ "" := String.append_empty.symm
  have hlast : d.lines.flatMap Text.lines ++ [""] = (d.lines ++ [""]).flatMap Text.lines := by
    rw [List.flatMap_append, List.flatMap_singleton, hempty]
  rw [hrender, Text.lines_ended_append, hempty, hlast, lines_append_empty, List.flatMap_append,
    hbase, List.flatMap_assoc]
  simp only [List.flatMap_cons, hempty, List.singleton_append]

theorem empty_not_mem_blocks (d : Document) : ∀ block ∈ d.blocks, "" ∉ block := by
  rw [blocks, List.forall_mem_append, List.forall_mem_append, List.forall_mem_map,
    List.forall_mem_map]
  refine ⟨fun e _ => e.empty_not_mem_lines, fun m _ => m.empty_not_mem_lines, ?_⟩
  simp only [List.forall_mem_cons]
  exact ⟨empty_not_mem_listing (by decide) _, empty_not_mem_listing (by decide) _, by decide,
    List.not_mem_nil, nofun⟩

theorem paragraphs_render (h : d.Unbroken) :
    Text.paragraphs d.render = baseTypes.splitOn "" ++ d.blocks := by
  rw [Text.paragraphs, lines_render,
    List.flatMap_congr fun block hb => congrArg ("" :: ·) (Text.flatMap_lines_of_unbroken (h block hb)),
    Text.splitOn_flatMap_cons d.empty_not_mem_blocks]

/-- A reader of paragraphs that passes over the silent ones reads types and lists of types. -/
theorem filterMap_paragraphs {α : Type} {read : List String → Option α} (h : d.Unbroken)
    (hempty : read [] = none) (hsilent : ∀ head body, Silent head → read (head :: body) = none) :
    (Text.paragraphs d.render).filterMap read =
      d.enums.filterMap (fun e => read e.lines) ++
        (d.models.filterMap (fun m => read m.lines) ++
          [listing "__AllModels" d.allModels, listing "__AllEnums" d.allEnums].filterMap read) := by
  have hbase : (baseTypes.splitOn "").filterMap read = [] := by
    refine List.filterMap_eq_nil_iff.mpr fun block hblock => ?_
    cases block with
    | nil => exact hempty
    | cons head body =>
      exact hsilent head body
        (baseTypes_silent head (mem_of_mem_splitOn hblock List.mem_cons_self)).2
  have hentries : read entriesBlock = none :=
    hsilent _ _ ⟨by decide +kernel, by decide +kernel⟩
  have hlast : [entriesBlock, []].filterMap read = [] := by
    rw [List.filterMap_cons_none hentries, List.filterMap_cons_none hempty, List.filterMap_nil]
  rw [paragraphs_render h, List.filterMap_append, hbase, List.nil_append, blocks,
    List.filterMap_append, List.filterMap_append, List.filterMap_map, List.filterMap_map]
  show _ ++ (_ ++ ([listing _ _, listing _ _] ++ [entriesBlock, []]).filterMap read) = _
  rw [List.filterMap_append, hlast, List.append_nil]
  rfl

/-- The types that a text exports are those of its blocks. -/
theorem names_render {f : LineForm} (hf : f ∈ typeForms) (d : Document) :
    f.names (Text.lines d.render) =
      d.blocks.flatMap fun block => f.names (block.flatMap Text.lines) := by
  have hbase : f.names baseTypes = [] :=
    List.filterMap_eq_nil_iff.mpr fun line hline => (baseTypes_silent line hline).2.types f hf
  have hempty : ∀ f ∈ typeForms, f.name? "" = none := by decide +kernel
  rw [lines_render, LineForm.names_append, hbase, List.nil_append, LineForm.names_flatMap]
  exact List.flatMap_congr fun block _ => LineForm.names_cons_of_none (hempty f hf) _

theorem names_render_of_unbroken (h : d.Unbroken)
    {f : LineForm} (hf : f ∈ typeForms) :
    f.names (Text.lines d.render) =
      d.enums.flatMap (fun e => f.names e.lines) ++ d.models.flatMap fun m => f.names m.lines := by
  have hentries : ∀ f ∈ typeForms, f.names entriesBlock = [] := by decide +kernel
  have hlists : ∀ block ∈ [listing "__AllModels" d.allModels, listing "__AllEnums" d.allEnums,
      entriesBlock, []], f.names block = [] := by
    simp only [List.forall_mem_cons]
    exact ⟨names_listing hf (by decide) _, names_listing hf (by decide) _, hentries f hf, rfl,
      nofun⟩
  rw [names_render hf,
    List.flatMap_congr fun block hb => congrArg f.names (Text.flatMap_lines_of_unbroken (h block hb)),
    blocks, List.flatMap_append, List.flatMap_append, List.flatMap_map, List.flatMap_map,
    List.flatMap_eq_nil_iff.mpr hlists, List.append_nil]

end Document

namespace Outline

/-- Whatever else a document has, a model without line breaks is read from its text. -/
theorem ofEntry_mem_models {d : Document} {m : ModelEntry} (hm : m ∈ d.models)
    (hbreaks : ∀ line ∈ m.lines, breaks line = 0) :
    ModelOutline.ofEntry m ∈ (ofText d.render).models := by
  have hblock : m.lines ∈ d.blocks :=
    List.mem_append_right _ (List.mem_append_left _ (List.mem_map_of_mem hm))
  have hlines : m.lines ∈ d.blocks.map (·.flatMap Text.lines) :=
    List.mem_map.mpr ⟨m.lines, hblock, Text.flatMap_lines_of_unbroken hbreaks⟩
  -- Breaks elsewhere make more lines of the other blocks, but leave the empty one before each.
  have hparagraph : m.lines ∈ Text.paragraphs d.render := by
    rw [Text.paragraphs, Document.lines_render, ← List.flatMap_map _ ("" :: ·)]
    exact Text.mem_splitOn_flatMap_cons hlines m.empty_not_mem_lines _
  simp only [ofText, List.mem_filterMap]
  exact ⟨m.lines, hparagraph, ModelOutline.ofLines?_modelLines m⟩

/-- A text exports all that the lines of its models do. -/
theorem sublist_modelExports (d : Document) :
    (d.models.flatMap fun m => modelForm.names (m.lines.flatMap Text.lines)).Sublist
      (ofText d.render).modelExports := by
  simp only [ofText]
  rw [Document.names_render (by decide), Document.blocks, List.flatMap_append,
    List.flatMap_append, List.flatMap_map, List.flatMap_map]
  exact (List.sublist_append_left _ _).trans (List.sublist_append_right _ _)

variable {d : Document} (h : d.Unbroken)

include h

theorem models_ofText_render : (ofText d.render).models = (ofDocument d).models := by
  simp only [ofText]
  have hsilent (head : String) (body : List String) (hhead : Silent head) :
      ModelOutline.ofLines? (head :: body) = none := by
    rw [ModelOutline.ofLines?, hhead.types modelForm (by decide), Option.map_none]
  rw [Document.filterMap_paragraphs h rfl hsilent,
    List.filterMap_eq_nil_iff.mpr fun e _ => ModelOutline.ofLines?_enumLines e,
    List.filterMap_congr fun m _ => ModelOutline.ofLines?_modelLines m,
    List.filterMap_cons_none (ofLines?_listing (by decide) _),
    List.filterMap_cons_none (ofLines?_listing (by decide) _), List.nil_append]
  exact (List.append_nil _).trans (congrFun List.filterMap_eq_map' _)

theorem enumNames_ofText_render : (ofText d.render).enumNames = (ofDocument d).enumNames := by
  simp only [ofText]
  have hsilent (head : String) (body : List String) (hhead : Silent head) :
      enumName? (head :: body) = none := by
    rw [enumName?, hhead.types enumForm (by decide), Option.bind_none]
  rw [Document.filterMap_paragraphs h rfl hsilent,
    List.filterMap_congr fun e _ => enumName?_enumLines e,
    List.filterMap_eq_nil_iff.mpr fun m _ => enumName?_modelLines m,
    List.filterMap_cons_none (enumName?_listing (by decide) _),
    List.filterMap_cons_none (enumName?_listing (by decide) _)]
  exact (List.append_nil _).trans (congrFun List.filterMap_eq_map' _)

theorem filterMap_members? {name : String} (hname : name ∈ listNames) :
    (Text.paragraphs d.render).filterMap (members? name) =
      [listing "__AllModels" d.allModels, listing "__AllEnums" d.allEnums].filterMap
        (members? name) := by
  have hmodels (m : ModelEntry) : members? name m.lines = none := by
    rw [m.lines_cons]
    exact members?_line (by decide) hname _ _
  have henums (e : EnumEntry) : members? name e.lines = none := by
    rw [e.lines_cons]
    exact members?_line (by decide) hname _ _
  rw [Document.filterMap_paragraphs h rfl fun _ _ hhead => if_neg (hhead.lists name hname),
    List.filterMap_eq_nil_iff.mpr fun e _ => henums e,
    List.filterMap_eq_nil_iff.mpr fun m _ => hmodels m, List.nil_append, List.nil_append]

theorem allModels_ofText_render : (ofText d.render).allModels = (ofDocument d).allModels := by
  have hother : members? "__AllModels" (listing "__AllEnums" d.allEnums) = none :=
    members?_listing_of_ne (by decide) (by decide) (by decide) _
  simp only [ofText]
  rw [filterMap_members? h (by decide), List.filterMap_cons_some (members?_listing _ _),
    List.filterMap_cons_none hother]
  rfl

theorem allEnums_ofText_render : (ofText d.render).allEnums = (ofDocument d).allEnums := by
  have hother : members? "__AllEnums" (listing "__AllModels" d.allModels) = none :=
    members?_listing_of_ne (by decide) (by decide) (by decide) _
  simp only [ofText]
  rw [filterMap_members? h (by decide), List.filterMap_cons_none hother,
    List.filterMap_cons_some (members?_listing _ _)]
  rfl

theorem modelExports_ofText_render :
    (ofText d.render).modelExports = (ofDocument d).modelExports := by
  simp only [ofText]
  rw [Document.names_render_of_unbroken h (by decide),
    List.flatMap_eq_nil_iff.mpr fun e _ => e.names_lines.1, List.nil_append]
  exact (List.flatMap_congr fun m _ => m.names_lines.1).trans (List.map_eq_flatMap ..).symm

theorem enumExports_ofText_render :
    (ofText d.render).enumExports = (ofDocument d).enumExports := by
  simp only [ofText]
  rw [Document.names_render_of_unbroken h (by decide)]
  have hmodels : d.models.flatMap (fun m => enumForm.names m.lines) = [] :=
    List.flatMap_eq_nil_iff.mpr fun m _ => m.names_lines.2
  rw [hmodels, List.append_nil]
  exact (List.flatMap_congr fun e _ => e.names_lines.2).trans (List.map_eq_flatMap ..).symm

/-- The text of a document without further line breaks says what the document is written for. -/
theorem ofText_render : ofText d.render = ofDocument d := by
  ext1
  case models => exact models_ofText_render h
  case enumNames => exact enumNames_ofText_render h
  case modelExports => exact modelExports_ofText_render h
  case enumExports => exact enumExports_ofText_render h
  case allModels => exact allModels_ofText_render h
  case allEnums => exact allEnums_ofText_render h

end Outline

section Schemas

/-- The names and values that the types of a schema are written with. -/
def writtenTexts (s : Schema) : List String :=
  s.enums.flatMap (fun e => e.exportName :: e.canonicalName :: e.values) ++
    s.models.flatMap fun m => m.canonicalName ::
      (m.columns.flatMap (fun c => c.fieldName :: c.canonicalName :: c.enumName.toList) ++
        (Schema.declaredOnes m).flatMap fun r => r.fieldName :: r.sourceModel ::
          r.referenceModel :: (r.sourceFields ++ r.referenceFields))

/-- The types of relations are those of the relations to one row that are declared on a model. -/
theorem relations_modelEntry (m : Model) :
    (modelEntry m).relations = (Schema.declaredOnes m).map relationEntry := by
  rw [Schema.declaredOnes, List.map_filterMap]
  refine List.filterMap_congr fun x _ => ?_
  cases x <;> rfl

theorem breaks_columnEntry {c : Column}
    (h : ∀ text ∈ c.fieldName :: c.canonicalName :: c.enumName.toList, breaks text = 0) :
    ∀ text ∈ (columnEntry c).texts, breaks text = 0 := by
  obtain ⟨hfield, hname, henum⟩ : breaks c.fieldName = 0 ∧ breaks c.canonicalName = 0 ∧
      ∀ name ∈ c.enumName.toList, breaks name = 0 := by
    simpa only [List.forall_mem_cons] using h
  -- Beside the names there are only words that are fixed.
  have htype : breaks c.type.name = 0 := by
    cases c.type <;> rfl
  have hmark (b : Bool) : breaks (toString b) = 0 := by
    cases b <;> rfl
  have henumName : breaks ((c.enumName.map Text.quote).getD "undefined") = 0 := by
    cases hname : c.enumName with
    | none => rfl
    | some name =>
      rw [Option.map_some, Option.getD_some, Text.breaks_quote]
      exact henum name (Option.mem_toList.mpr hname)
  simp only [ColumnEntry.texts, columnEntry, List.forall_mem_cons, Text.breaks_quote]
  exact ⟨hfield, hfield, hname, htype, hmark _, hmark _, hmark _, hmark _, henumName, rfl, nofun⟩

theorem breaks_relationEntry {r : OneRelation}
    (h : ∀ text ∈ r.fieldName :: r.sourceModel :: r.referenceModel ::
      (r.sourceFields ++ r.referenceFields), breaks text = 0) :
    ∀ text ∈ (relationEntry r).texts, breaks text = 0 := by
  simp only [List.forall_mem_cons, List.forall_mem_append] at h
  obtain ⟨hfield, hsource, hreference, hfields, hreferences⟩ := h
  have hdirection : breaks r.direction.name = 0 := by
    cases r.direction <;> rfl
  simp only [RelationEntry.texts, relationEntry, List.forall_mem_cons, Text.breaks_quotedList]
  exact ⟨hfield, rfl, hdirection, hsource, hreference, Text.sum_breaks_eq_zero hfields,
    Text.sum_breaks_eq_zero hreferences, rfl, nofun⟩

/-- The document of a schema has line breaks where what is written has some, and nowhere else. -/
theorem breaks_blocks_document {s : Schema} (h : ∀ text ∈ writtenTexts s, breaks text = 0) :
    (document s).Unbroken := by
  simp only [writtenTexts, List.forall_mem_append, List.forall_mem_flatMap, List.forall_mem_cons]
    at h
  obtain ⟨henums, hmodels⟩ := h
  -- What the lists name is also written in the types that they name.
  have hallModels : ∀ member ∈ (document s).allModels, breaks member.1 = 0 ∧ breaks member.2 = 0 :=
    List.forall_mem_map.mpr fun m hm => ⟨(hmodels m hm).1, (hmodels m hm).1⟩
  have hallEnums : ∀ member ∈ (document s).allEnums, breaks member.1 = 0 ∧ breaks member.2 = 0 :=
    List.forall_mem_map.mpr fun e he => ⟨(henums e he).2.1, (henums e he).1⟩
  rw [Document.Unbroken, Document.blocks, List.forall_mem_append, List.forall_mem_append]
  refine ⟨List.forall_mem_map.mpr (List.forall_mem_map.mpr fun e he => ?_),
    List.forall_mem_map.mpr (List.forall_mem_map.mpr fun m hm => ?_), ?_⟩
  · obtain ⟨hexport, hname, hvalues⟩ := henums e he
    apply EnumEntry.breaks_lines
    simp only [EnumEntry.texts, enumEntry, List.forall_mem_cons, Text.breaks_quote,
      Text.breaks_quotedList]
    exact ⟨hexport, hname, Text.sum_breaks_eq_zero hvalues, rfl, nofun⟩
  · obtain ⟨hname, hcolumns, hrelations⟩ := hmodels m hm
    refine ModelEntry.breaks_lines hname (List.forall_mem_map.mpr fun c hc => ?_) ?_
    · exact breaks_columnEntry (by simpa only [List.forall_mem_cons] using hcolumns c hc)
    · rw [relations_modelEntry]
      refine List.forall_mem_map.mpr fun r hr => breaks_relationEntry ?_
      simpa only [List.forall_mem_cons, List.forall_mem_append] using hrelations r hr
  · simp only [List.forall_mem_cons]
    exact ⟨breaks_listing (by decide) hallModels, breaks_listing (by decide) hallEnums,
      by decide, nofun, nofun⟩

/-- The type of a model of a schema. -/
def ModelOutline.ofModel (m : Model) : ModelOutline where
  name := m.canonicalName
  columns := m.columns.map (·.fieldName)
  enumNames := m.columns.map fun c => (c.enumName.map Text.quote).getD "undefined"
  sources := (Schema.declaredOnes m).map (·.sourceModel)
  references := (Schema.declaredOnes m).map (·.referenceModel)

/-- Each model and each enum of a schema is exported and listed once, in the order of the schema. -/
def Outline.ofSchema (s : Schema) : Outline where
  models := s.models.map .ofModel
  enumNames := s.enums.map fun e => Text.quote e.canonicalName
  modelExports := s.models.map (·.canonicalName)
  enumExports := s.enums.map (·.exportName)
  allModels := [s.models.map fun m => memberLine (m.canonicalName, m.canonicalName)]
  allEnums := [s.enums.map fun e => memberLine (e.canonicalName, e.exportName)]

theorem ModelOutline.ofEntry_modelEntry (m : Model) : ofEntry (modelEntry m) = ofModel m := by
  rw [ofEntry, relations_modelEntry, List.map_map, List.map_map]
  simp only [modelEntry, List.map_map]
  rfl

theorem Outline.ofDocument_document (s : Schema) : ofDocument (document s) = ofSchema s := by
  have hmodels : ModelOutline.ofEntry ∘ modelEntry = ModelOutline.ofModel :=
    funext ModelOutline.ofEntry_modelEntry
  simp only [ofDocument, document, List.map_map, hmodels]
  rfl

/-- The text of a schema says what the schema does, if nothing that is written has line breaks. -/
theorem Outline.ofText_document {s : Schema} (h : ∀ text ∈ writtenTexts s, '\n' ∉ text.toList) :
    ofText (document s).render = ofSchema s := by
  have hbreaks := breaks_blocks_document fun text ht => Text.breaks_eq_zero_iff.mpr (h text ht)
  rw [ofText_render hbreaks, ofDocument_document]

end Schemas

end Schemata.TypeScript
