import Schemata.Proofs.Coherence
import Schemata.Proofs.TypeScript.Reading
/-!
# Which types a text refers to

The types of relations and of columns of enums name other types of the text. Where validation
finds nothing to report and no name brings line breaks along, each name is that of a type that is
exported (`Outline.Closed`).
-/

namespace Schemata

namespace Schema

/-- Where nothing is noticed, every relation that is declared on a model uses columns. -/
theorem usesColumns_of_unnoticed {s : Schema} (hunnoticed : s.validate.warnings = []) {m : Model}
    (hm : m ∈ s.models) {r : OneRelation} (hr : r ∈ declaredOnes m) :
    ¬(r.sourceFields = [] ∧ r.referenceFields = []) := by
  rintro ⟨hsource, hreference⟩
  rw [warnings_validate, List.flatMap_eq_nil_iff] at hunnoticed
  have hnone := List.flatMap_eq_nil_iff.mp (hunnoticed m hm) r hr
  unfold relationReport at hnone
  simp [hsource, hreference] at hnone

end Schema

namespace TypeScript

/-- The names in a text are those of types that it exports, and it lists the types of all models
that it exports. -/
structure Outline.Closed (o : Outline) : Prop where
  /-- A relation starts from the model that it is declared on. -/
  source : ∀ m ∈ o.models, ∀ name ∈ m.sources, name = m.name
  exported : ∀ m ∈ o.models, ∀ name ∈ m.sources ++ m.references, o.modelExports.count name = 1
  columnKeys : ∀ m ∈ o.models, m.columns.Nodup
  /-- The enum of a column is one whose type has that literal for its name. -/
  enumNames : ∀ m ∈ o.models, ∀ written ∈ m.enumNames,
    written = "undefined" ∨ written ∈ o.enumNames
  modelsOnce : o.modelExports.Nodup ∧
    o.allModels = [o.modelExports.map fun name => memberLine (name, name)]

end TypeScript

namespace Graph

open TypeScript

variable {policy : UnresolvedPolicy} {g : Graph} {s : Schema} {m : Model}

theorem sourceModel_of_mem_declaredOnes (h : g.normalize policy = .ok s) (hm : m ∈ s.models)
    {r : OneRelation} (hr : r ∈ Schema.declaredOnes m) : r.sourceModel = m.canonicalName := by
  obtain ⟨-, rfl⟩ := normalize_eq_ok_iff.mp h
  obtain ⟨t, -, rfl⟩ := List.mem_map.mp hm
  obtain ⟨hview, hout⟩ := Schema.mem_declaredOnes_iff.mp hr
  obtain ⟨x, -, ⟨heq, hname⟩ | ⟨heq, -⟩⟩ := ResolvedRelations.mem_attachedTo_iff.mp hview
  · have hsource := congrArg Relation.sourceModel heq
    rw [Relation.sourceModel_withDirection, hname] at hsource
    exact hsource
  · -- What a model sees from where a relation leads to is not declared on it.
    have hdirection := congrArg Relation.direction heq
    rw [Relation.direction_withDirection] at hdirection
    exact absurd (hout.symm.trans hdirection) (by decide)

/-- What is written for a schema that validation has nothing to say about is closed. -/
theorem closed_ofSchema (h : g.normalize policy = .ok s) (hvalid : s.validate.errors = [])
    (hunnoticed : s.validate.warnings = []) : (Outline.ofSchema s).Closed := by
  have hnames := distinctNames_of_normalize h
  have hexported {m : Model} (hm : m ∈ s.models) :
      (Outline.ofSchema s).modelExports.count m.canonicalName = 1 :=
    List.count_eq_one_of_mem hnames (List.mem_map_of_mem hm)
  constructor
  case source =>
    refine List.forall_mem_map.mpr fun m hm => List.forall_mem_map.mpr fun r hr => ?_
    exact sourceModel_of_mem_declaredOnes h hm hr
  case exported =>
    refine List.forall_mem_map.mpr fun m hm => List.forall_mem_append.mpr ⟨?_, ?_⟩
    · refine List.forall_mem_map.mpr fun r hr => ?_
      rw [sourceModel_of_mem_declaredOnes h hm hr]
      exact hexported hm
    · refine List.forall_mem_map.mpr fun r hr => ?_
      -- Validation vouches for the other side where columns are used, as they are if it is silent.
      obtain ⟨-, -, m', hm', hreference⟩ := Schema.sides_of_declared hvalid hm hr
        (Schema.usesColumns_of_unnoticed hunnoticed hm hr)
      rw [← hreference.1]
      exact hexported hm'
  case columnKeys => exact List.forall_mem_map.mpr fun m hm => nodup_columns_of_normalize h hm
  case enumNames =>
    refine List.forall_mem_map.mpr fun m hm => List.forall_mem_map.mpr fun c hc => ?_
    cases hname : c.enumName with
    | none => exact .inl rfl
    | some name =>
      obtain ⟨e, he, rfl⟩ := exists_enum_of_mem_columns h hm hc hname
      exact .inr (List.mem_map_of_mem he)
  case modelsOnce =>
    refine ⟨hnames, ?_⟩
    simp only [Outline.ofSchema, List.map_map]
    rfl

/-- The text of a schema that validation has nothing to say about says what the schema does, and
is closed, if nothing that is written has line breaks. -/
theorem closed_types_of_unreported (h : g.normalize policy = .ok s)
    (hvalid : s.validate.errors = []) (hunnoticed : s.validate.warnings = [])
    (hunbroken : ∀ text ∈ writtenTexts s, '\n' ∉ text.toList) :
    Outline.ofText (TypeScript.document s).render = .ofSchema s ∧
      (Outline.ofText (TypeScript.document s).render).Closed := by
  rw [Outline.ofText_document hunbroken]
  exact ⟨rfl, closed_ofSchema h hvalid hunnoticed⟩

/-- Visits of patients, who may be referred by one another, with a kind that is declared again. -/
def clinics : Graph where
  version := none
  entries := [
    .enum ⟨"visitKind", "VisitKind", ["first", "again"]⟩,
    .table ((TableDeclaration.ofName "Patient")
      |>.addColumn (.ofName "id" .text "text")
      |>.addColumn (.ofName "referrer_id" .text "text")
      |>.addForeignKey ⟨["referrer_id"], "Patient", ["id"]⟩),
    .table ((TableDeclaration.ofName "Visit")
      |>.addColumn (.ofName "kind" .text "text")
      |>.addColumn (.ofName "patient_id" .text "text")
      |>.addColumn
        { ColumnDeclaration.ofName "kind" .enum "kind" with enumName := some "VisitKind" }),
    .relations ⟨"patientRelations", "Patient", [
      ⟨"referrer", .one, "", "Patient", none⟩, ⟨"visits", .many, "", "Visit", none⟩]⟩,
    .relations ⟨"visitRelations", "Visit", [
      ⟨"patient", .one, "", "Patient", some ⟨["patient_id"], ["id"], none, none⟩⟩]⟩]

theorem closed_types_of_unreported_clinics :
    ∃ s, clinics.normalize .warn = .ok s ∧ s.validate = .empty ∧
      (∀ text ∈ writtenTexts s, '\n' ∉ text.toList) ∧
      (Outline.ofText (TypeScript.document s).render).Closed ∧
      (Outline.ofText (TypeScript.document s).render).models.map (·.references) =
        [["Patient"], ["Patient"]] ∧
      (Outline.ofText (TypeScript.document s).render).models.map (·.enumNames) =
        [["undefined", "undefined"], ["\"VisitKind\"", "undefined"]] := by
  have h : clinics.normalize .warn = .ok clinics.schema := rfl
  have hunbroken : ∀ text ∈ writtenTexts clinics.schema, '\n' ∉ text.toList := by decide
  obtain ⟨hread, hclosed⟩ := closed_types_of_unreported h rfl rfl hunbroken
  refine ⟨_, h, rfl, hunbroken, hclosed, ?_⟩
  rw [hread]
  exact ⟨rfl, rfl⟩

/-- A folder in another one, and a table whose name ends the type of its model and begins one of
another name. -/
def folders : Graph where
  version := none
  entries := [
    .table ((TableDeclaration.ofName "A")
      |>.addColumn (.ofName "id" .text "text")
      |>.addColumn (.ofName "parentId" .text "text")),
    .table ((TableDeclaration.ofName "B = \x7b\x7d;\nexport type A")
      |>.addColumn (.ofName "id" .text "text")),
    .relations ⟨"relationsA", "A", [
      ⟨"parent", .one, "", "A", some ⟨["parentId"], ["id"], none, none⟩⟩]⟩]

/-- A name with line breaks can export the type of another model once more. -/
theorem not_closed_types_of_unreported :
    ¬∀ (g : Graph) (policy : UnresolvedPolicy) (s : Schema), g.normalize policy = .ok s →
      s.validate.errors = [] → s.validate.warnings = [] →
        ∀ m ∈ (Outline.ofText (TypeScript.document s).render).models,
          ∀ name ∈ m.sources ++ m.references,
            (Outline.ofText (TypeScript.document s).render).modelExports.count name = 1 := by
  intro hall
  -- The first model refers to itself, and nothing that it is written with has line breaks.
  have hmodel := Outline.ofEntry_mem_models (d := TypeScript.document folders.schema)
    List.mem_cons_self (ModelEntry.breaks_lines rfl (by decide) (by decide))
  have honce := hall folders .error folders.schema rfl rfl rfl _ hmodel "A" (by decide)
  -- Its type is exported where it should be, and once more where the second name breaks.
  obtain ⟨a, b, hmodels, ha, hb⟩ : ∃ a b, (TypeScript.document folders.schema).models = [a, b] ∧
      a.name = "A" ∧ b.name = "B = \x7b\x7d;\nexport type A" := ⟨_, _, rfl, rfl, rfl⟩
  have hunbroken : Text.lines (modelForm.line "A") = [modelForm.line "A"] :=
    Text.lines_eq_singleton rfl
  have hbroken : Text.lines (modelForm.line b.name) =
      ["export type B = \x7b\x7d;", modelForm.line "A"] := by
    rw [hb]
    show Text.lines ("export type B = \x7b\x7d;" ++ "\n" ++ modelForm.line "A") = _
    rw [Text.lines_append_break, hunbroken, Text.lines_eq_singleton rfl]
    rfl
  have hfirst : 0 < (modelForm.names (a.lines.flatMap Text.lines)).count "A" := by
    refine List.count_pos_iff.mpr (ModelEntry.mem_names_flatMap_lines ?_)
    rw [ha, hunbroken]
    exact List.mem_singleton_self _
  have hsecond : 0 < (modelForm.names (b.lines.flatMap Text.lines)).count "A" := by
    refine List.count_pos_iff.mpr (ModelEntry.mem_names_flatMap_lines ?_)
    rw [hbroken]
    exact List.mem_cons_of_mem _ List.mem_cons_self
  have htwice := (Outline.sublist_modelExports (TypeScript.document folders.schema)).count_le "A"
  rw [honce, hmodels, List.flatMap_cons, List.flatMap_cons, List.count_append,
    List.count_append] at htwice
  omega

end Graph
end Schemata
