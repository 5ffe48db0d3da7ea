import Schemata.Schema.Validation
import Schemata.Proofs.Views
/-!
# What a report without errors says

Validation looks at relations where they start: on the model that declares them. So a report
without errors vouches for every relation that starts from a model of the schema, and says
nothing about the others.
-/

namespace Schemata

theorem Report.errors_mergeAll (reports : List Report) :
    (mergeAll reports).errors = reports.flatMap (·.errors) := by
  induction reports with
  | nil => rfl
  | cons r reports ih =>
    rw [List.flatMap_cons, ← ih]
    rfl

theorem Report.warnings_mergeAll (reports : List Report) :
    (mergeAll reports).warnings = reports.flatMap (·.warnings) := by
  induction reports with
  | nil => rfl
  | cons r reports ih =>
    rw [List.flatMap_cons, ← ih]
    rfl

namespace Schema

theorem errors_modelReport (s : Schema) (m : Model) :
    (s.modelReport m).errors = s.enumErrors m ++ indexErrors m ++
      (declaredOnes m).flatMap fun r => (s.relationReport m r).errors := by
  have hmerge (a b : Report) : (a.merge b).errors = a.errors ++ b.errors := rfl
  rw [modelReport, hmerge, Report.errors_mergeAll, List.flatMap_map]
  rfl

theorem errors_validate (s : Schema) :
    s.validate.errors = s.models.flatMap fun m => (s.modelReport m).errors := by
  rw [validate, Report.errors_mergeAll, List.flatMap_map]

theorem warnings_validate (s : Schema) :
    s.validate.warnings =
      s.models.flatMap fun m => (declaredOnes m).flatMap fun r => (s.relationReport m r).warnings := by
  -- Only relations are noticed; what is wrong with enums and indexes is an error.
  have hmodel (m : Model) : (s.modelReport m).warnings =
      (declaredOnes m).flatMap fun r => (s.relationReport m r).warnings := by
    rw [modelReport, Report.merge, Report.warnings_mergeAll, List.flatMap_map]
    rfl
  rw [validate, Report.warnings_mergeAll, List.flatMap_map]
  simp only [hmodel]

theorem indexErrors_eq_nil_of_valid {s : Schema} (hvalid : s.validate.errors = []) {m : Model}
    (hm : m ∈ s.models) : indexErrors m = [] := by
  rw [errors_validate, List.flatMap_eq_nil_iff] at hvalid
  have hmodel := hvalid m hm
  rw [errors_modelReport, List.append_eq_nil_iff, List.append_eq_nil_iff] at hmodel
  exact hmodel.1.2

theorem relationReport_eq_nil_of_valid {s : Schema} (hvalid : s.validate.errors = []) {m : Model}
    (hm : m ∈ s.models) {r : OneRelation} (hr : r ∈ declaredOnes m) :
    (s.relationReport m r).errors = [] := by
  rw [errors_validate, List.flatMap_eq_nil_iff] at hvalid
  have hmodel := hvalid m hm
  rw [errors_modelReport, List.append_eq_nil_iff, List.flatMap_eq_nil_iff] at hmodel
  exact hmodel.2 r hr

/-- The relations that validation looks at on a model. -/
theorem mem_declaredOnes_iff {m : Model} {r : OneRelation} :
    r ∈ declaredOnes m ↔ .one r ∈ m.relations ∧ r.direction = .out := by
  simp only [declaredOnes, Model.relationsIn, List.mem_filterMap, List.mem_filter]
  constructor
  · rintro ⟨x, ⟨hx, hout⟩, hr⟩
    cases x with
    | many _ => cases hr
    | one x =>
      cases hr
      exact ⟨hx, of_decide_eq_true hout⟩
  · rintro ⟨hr, hout⟩
    exact ⟨.one r, ⟨hr, decide_eq_true hout⟩, rfl⟩

theorem missingFields_eq_nil_iff {m : Model} {fields : List String} :
    missingFields m fields = [] ↔ ∀ f ∈ fields, ∃ c ∈ m.columns, c.canonicalName = f := by
  simp only [missingFields, Model.columnNamed?, List.filter_eq_nil_iff, Option.isNone_iff_eq_none,
    List.find?_eq_none, beq_iff_eq, not_forall, not_not, exists_prop]

theorem errors_relationReport_eq_nil_iff {s : Schema} {m : Model} {r : OneRelation}
    (hfields : ¬(r.sourceFields = [] ∧ r.referenceFields = [])) :
    (s.relationReport m r).errors = [] ↔
      r.sourceFields.length = r.referenceFields.length ∧ missingFields m r.sourceFields = [] ∧
        ∃ reference, s.model? r.referenceModel = some reference ∧
          missingFields reference r.referenceFields = [] := by
  have hsome : ¬(r.sourceFields.isEmpty && r.referenceFields.isEmpty) = true := by
    simpa only [Bool.and_eq_true, List.isEmpty_iff] using hfields
  rw [relationReport, if_neg hsome]
  simp only [Report.ofErrors, List.append_eq_nil_iff, unknownFields, List.map_eq_nil_iff,
    and_assoc]
  refine and_congr ?_ (and_congr_right fun _ => ?_)
  · split <;> simp_all only [List.cons_ne_nil]
  · cases s.model? r.referenceModel <;> simp

/-- Both sides of a relation are models of the schema, and have the columns that it pairs up. -/
structure SidesKnown (s : Schema) (r : OneRelation) : Prop where
  source : ∃ m, s.model? r.sourceModel = some m ∧
    ∀ f ∈ r.sourceFields, ∃ c ∈ m.columns, c.canonicalName = f
  reference : ∃ m, s.model? r.referenceModel = some m ∧
    ∀ f ∈ r.referenceFields, ∃ c ∈ m.columns, c.canonicalName = f
  paired : r.sourceFields.length = r.referenceFields.length

theorem sidesKnown_of_declared {s : Schema} (hvalid : s.validate.errors = []) {m : Model}
    {r : OneRelation} (hm : s.model? r.sourceModel = some m) (hr : r ∈ declaredOnes m)
    (hfields : ¬(r.sourceFields = [] ∧ r.referenceFields = [])) : s.SidesKnown r := by
  obtain ⟨hpaired, hsource, reference, hreference, hcolumns⟩ :=
    (errors_relationReport_eq_nil_iff hfields).mp
      (relationReport_eq_nil_of_valid hvalid (List.mem_of_find?_eq_some hm) hr)
  exact ⟨⟨m, hm, missingFields_eq_nil_iff.mp hsource⟩,
    ⟨reference, hreference, missingFields_eq_nil_iff.mp hcolumns⟩, hpaired⟩

/-- A relation that is declared on a model and uses columns has columns on both sides, those of the
one side on that model and those of the other on the model it leads to. -/
theorem sides_of_declared {s : Schema} (hvalid : s.validate.errors = []) {m : Model}
    (hm : m ∈ s.models) {r : OneRelation} (hr : r ∈ declaredOnes m)
    (hfields : ¬(r.sourceFields = [] ∧ r.referenceFields = [])) :
    (r.sourceFields.length = r.referenceFields.length) ∧
      (∀ f ∈ r.sourceFields, ∃ c ∈ m.columns, c.canonicalName = f) ∧
      ∃ m' ∈ s.models, m'.canonicalName = r.referenceModel ∧
        ∀ f ∈ r.referenceFields, ∃ c ∈ m'.columns, c.canonicalName = f := by
  obtain ⟨hpaired, hsource, m', hm', hreference⟩ := (errors_relationReport_eq_nil_iff hfields).mp
    (relationReport_eq_nil_of_valid hvalid hm hr)
  have hname := List.find?_some hm'
  exact ⟨hpaired, missingFields_eq_nil_iff.mp hsource, m', List.mem_of_find?_eq_some hm',
    eq_of_beq hname, missingFields_eq_nil_iff.mp hreference⟩

end Schema

namespace Graph

theorem mem_declaredOnes_of_normalize {policy : UnresolvedPolicy} {g : Graph} {s : Schema}
    (h : g.normalize policy = .ok s) {m : Model} {r : OneRelation} (hr : .one r ∈ s.relations)
    (hm : s.model? r.sourceModel = some m) : r ∈ Schema.declaredOnes m := by
  obtain ⟨-, rfl⟩ := normalize_eq_ok_iff.mp h
  have hout : r.direction = .out := g.direction_of_mem_resolved hr
  obtain ⟨t, -, rfl⟩ := List.mem_map.mp (List.mem_of_find?_eq_some hm)
  have hname : t.name = r.sourceModel := by
    have hfound := List.find?_some hm
    exact eq_of_beq hfound
  -- The view of a relation from its own source is the relation itself.
  refine Schema.mem_declaredOnes_iff.mpr ⟨?_, hout⟩
  have hview := (g.declared_resolved.mem_attachedTo_out_iff hr t.name).mpr hname
  rwa [g.declared_resolved.withDirection_out hr] at hview

/-- A report without errors vouches for the relations that start from a model, and for no other. -/
theorem sidesKnown_iff_source_of_valid {policy : UnresolvedPolicy} {g : Graph} {s : Schema}
    (h : g.normalize policy = .ok s) (hvalid : s.validate.errors = []) (r : OneRelation)
    (hr : .one r ∈ s.relations) (hfields : ¬(r.sourceFields = [] ∧ r.referenceFields = [])) :
    s.SidesKnown r ↔ (s.model? r.sourceModel).isSome := by
  constructor
  · rintro ⟨⟨m, hm, -⟩, -, -⟩
    rw [hm]
    rfl
  · intro hsource
    obtain ⟨m, hm⟩ := Option.isSome_iff_exists.mp hsource
    exact Schema.sidesKnown_of_declared hvalid hm (mem_declaredOnes_of_normalize h hr hm) hfields

/-- Two relations over stated columns, the second from a table that is not declared. -/
def sessions : Graph where
  version := none
  entries := [
    .table ((TableDeclaration.ofName "User").addColumn (.ofName "id" .text "text")),
    .table ((TableDeclaration.ofName "Session").addColumn (.ofName "userId" .text "text")),
    .relations ⟨"sessionRelations", "Session", [
      ⟨"user", .one, "", "User", some ⟨["userId"], ["id"], none, none⟩⟩]⟩,
    .relations ⟨"visitRelations", "Visit", [
      ⟨"user", .one, "", "User", some ⟨["userId"], ["id"], none, none⟩⟩]⟩]

theorem sidesKnown_iff_source_of_valid_sessions :
    ∃ s r, sessions.normalize .error = .ok s ∧ s.validate.errors = [] ∧ .one r ∈ s.relations ∧
      r.sourceModel = "Session" ∧ s.SidesKnown r := by
  have h : sessions.normalize .error = .ok sessions.schema := rfl
  let r : OneRelation := ⟨"user", "user", none, "Session", "User", ["userId"], ["id"], true, .out⟩
  have hr : .one r ∈ sessions.schema.relations := by decide
  have hfields : ¬(r.sourceFields = [] ∧ r.referenceFields = []) := by decide
  exact ⟨sessions.schema, r, h, rfl, hr, rfl,
    (sidesKnown_iff_source_of_valid h rfl r hr hfields).mpr rfl⟩

/-- A report without errors does not vouch for every relation of the schema. -/
theorem not_sidesKnown_of_valid :
    ¬∀ (policy : UnresolvedPolicy) (g : Graph) (s : Schema), g.normalize policy = .ok s →
      s.validate.errors = [] → ∀ r, .one r ∈ s.relations →
        ¬(r.sourceFields = [] ∧ r.referenceFields = []) → s.SidesKnown r := by
  intro hall
  let r : OneRelation := ⟨"user", "user", none, "Visit", "User", ["userId"], ["id"], false, .out⟩
  have hr : .one r ∈ sessions.schema.relations := by decide
  have hfields : ¬(r.sourceFields = [] ∧ r.referenceFields = []) := by decide
  obtain ⟨m, hm, -⟩ := (hall .error sessions sessions.schema rfl rfl r hr hfields).source
  cases hm

end Graph
end Schemata
