import Schemata.Proofs.Prisma.Lines
import Schemata.Proofs.References
/-!
# Which columns a document refers to

The constraints of a document name columns as they are stored, but its blocks name them by their
fields. So the document of a schema without errors refers to columns of the right models
(`UsesColumn`), and it is closed if these are fields of the names under which they are stored.
-/

namespace Schemata

namespace Schema

/-- A schema uses a name for a column that is stored on a model: in an index of the model, in a
relation that starts from it, or in one that leads to it. -/
inductive UsesColumn (s : Schema) (m : Model) (name : String) : Prop
  | index (i : Index) (hi : i ∈ m.indexes) (hname : name ∈ i.fields)
  | source (r : OneRelation) (hr : r ∈ declaredOnes m) (hname : name ∈ r.sourceFields)
  | reference (m' : Model) (hm' : m' ∈ s.models) (r : OneRelation) (hr : r ∈ declaredOnes m')
      (hto : r.referenceModel = m.canonicalName) (hname : name ∈ r.referenceFields)

variable {s : Schema} {m : Model}

theorem column_of_index (hvalid : s.validate.errors = []) (hm : m ∈ s.models) {i : Index}
    (hi : i ∈ m.indexes) {name : String} (hname : name ∈ i.fields) :
    ∃ c ∈ m.columns, c.canonicalName = name := by
  have herrors := indexErrors_eq_nil_of_valid hvalid hm
  rw [indexErrors, List.flatMap_eq_nil_iff] at herrors
  exact missingFields_eq_nil_iff.mp (List.map_eq_nil_iff.mp (herrors i hi)) name hname

theorem sourceFields_ne_nil_of_valid (hvalid : s.validate.errors = []) (hm : m ∈ s.models)
    {r : OneRelation} (hr : r ∈ declaredOnes m) {name : String} (hname : name ∈ r.referenceFields) :
    r.sourceFields ≠ [] := by
  intro hnil
  have hpaired := (sides_of_declared hvalid hm hr fun h => List.ne_nil_of_mem hname h.2).1
  rw [hnil, List.length_nil, eq_comm, List.length_eq_zero_iff] at hpaired
  exact List.ne_nil_of_mem hname hpaired

/-- Where a report has no errors, the names in use are those of stored columns. -/
theorem UsesColumn.exists_column {name : String} (hused : s.UsesColumn m name)
    (hvalid : s.validate.errors = []) (hnames : (s.models.map (·.canonicalName)).Nodup)
    (hm : m ∈ s.models) : ∃ c ∈ m.columns, c.canonicalName = name := by
  cases hused with
  | index i hi hname => exact column_of_index hvalid hm hi hname
  | source r hr hname =>
    have hfields : ¬(r.sourceFields = [] ∧ r.referenceFields = []) :=
      fun h => List.ne_nil_of_mem hname h.1
    exact (sides_of_declared hvalid hm hr hfields).2.1 name hname
  | reference m' hm' r hr hto hname =>
    have hfields : ¬(r.sourceFields = [] ∧ r.referenceFields = []) :=
      fun h => List.ne_nil_of_mem hname h.2
    obtain ⟨-, -, target, htarget, heq, hcolumns⟩ := sides_of_declared hvalid hm' hr hfields
    -- The model that the relation leads to is this one, since no two models share a name.
    rw [List.inj_on_of_nodup_map hnames hm htarget (hto.symm.trans heq.symm)]
    exact hcolumns name hname

end Schema

namespace Prisma

/-- Every column that a document refers to is a field of the block where it refers to it. -/
structure Document.Closed (d : Document) : Prop where
  fields : ∀ b ∈ d.models, ∀ l ∈ b.relations, ∀ name ∈ l.fields, name ∈ b.columns.map (·.name)
  references : ∀ b ∈ d.models, ∀ l ∈ b.relations, ∀ name ∈ l.references,
    ∃ b' ∈ d.models, b'.name = l.type ∧ name ∈ b'.columns.map (·.name)
  indexes : ∀ b ∈ d.models, ∀ i ∈ b.indexes, ∀ name ∈ i.fields, name ∈ b.columns.map (·.name)

variable {m : Model} {name : String}

theorem mem_columns_modelBlock_iff :
    name ∈ (modelBlock m).columns.map (·.name) ↔ ∃ c ∈ m.columns, c.fieldName = name := by
  simp only [modelBlock, List.map_map, List.mem_map, Function.comp_apply, columnLine]

theorem columns_lineOf_of_inbound (field : String) {r : OneRelation} (hd : r.direction = .inbound) :
    (lineOf field r).fields = [] ∧ (lineOf field r).references = [] := by
  rw [lineOf, hd]
  exact ⟨rfl, rfl⟩

theorem columns_lineOf_of_out (field : String) {r : OneRelation} (hd : r.direction = .out) :
    (lineOf field r).type = r.referenceModel ∧ (lineOf field r).fields = r.sourceFields ∧
      (lineOf field r).references = if r.sourceFields = [] then [] else r.referenceFields := by
  rw [lineOf, hd]
  simp only [outboundLine, RelationLine.withName, RelationLine.type, RelationLine.fields,
    RelationLine.references, List.isEmpty_iff, and_self]

/-- The lines of a block that list columns are those of the relations declared on its model. -/
theorem exists_line_listing_iff (p : String → List String → List String → Prop)
    (hp : ∀ type, ¬p type [] []) :
    (∃ l ∈ (modelBlock m).relations, p l.type l.fields l.references) ↔
      ∃ r ∈ Schema.declaredOnes m, p r.referenceModel r.sourceFields
        (if r.sourceFields = [] then [] else r.referenceFields) := by
  constructor
  · rintro ⟨l, hl, hlists⟩
    obtain ⟨r, hr, heq⟩ := exists_relation_of_mem_relationLines hl
    rw [heq] at hlists
    cases hd : r.direction with
    | inbound =>
      obtain ⟨hfields, hreferences⟩ := columns_lineOf_of_inbound l.name hd
      rw [hfields, hreferences] at hlists
      exact absurd hlists (hp _)
    | out =>
      obtain ⟨htype, hfields, hreferences⟩ := columns_lineOf_of_out l.name hd
      rw [htype, hfields, hreferences] at hlists
      exact ⟨r, Schema.mem_declaredOnes_iff.mpr ⟨hr, hd⟩, hlists⟩
  · rintro ⟨r, hr, hlists⟩
    obtain ⟨hr, hd⟩ := Schema.mem_declaredOnes_iff.mp hr
    obtain ⟨field, hl⟩ := exists_mem_relationLines (m.columns.map (·.fieldName)) hr
    obtain ⟨htype, hfields, hreferences⟩ := columns_lineOf_of_out field hd
    refine ⟨lineOf field r, hl, ?_⟩
    rwa [htype, hfields, hreferences]

theorem exists_mem_fields_iff :
    (∃ l ∈ (modelBlock m).relations, name ∈ l.fields) ↔
      ∃ r ∈ Schema.declaredOnes m, name ∈ r.sourceFields :=
  exists_line_listing_iff (fun _ fields _ => name ∈ fields) fun _ => List.not_mem_nil

theorem exists_mem_references_iff {type : String} :
    (∃ l ∈ (modelBlock m).relations, l.type = type ∧ name ∈ l.references) ↔
      ∃ r ∈ Schema.declaredOnes m, r.referenceModel = type ∧ r.sourceFields ≠ [] ∧
        name ∈ r.referenceFields := by
  refine (exists_line_listing_iff (fun other _ references => other = type ∧ name ∈ references)
    fun _ h => List.not_mem_nil h.2).trans ?_
  refine exists_congr fun r => and_congr_right fun _ => and_congr_right fun _ => ?_
  split <;> simp_all

theorem exists_mem_indexes_iff :
    (∃ i ∈ (modelBlock m).indexes, name ∈ i.fields) ↔ ∃ i ∈ m.indexes, name ∈ i.fields := by
  simp only [modelBlock, List.mem_map, exists_exists_and_eq_and]

/-- The document of a schema without errors is closed if the names that the schema uses for columns
are names of fields. -/
theorem closed_document_iff_of_valid {s : Schema} (hvalid : s.validate.errors = [])
    (hnames : (s.models.map (·.canonicalName)).Nodup) (preludeText : String) :
    (document preludeText s).Closed ↔
      ∀ m ∈ s.models, ∀ name, s.UsesColumn m name → ∃ c ∈ m.columns, c.fieldName = name := by
  simp only [← mem_columns_modelBlock_iff]
  constructor
  · intro hclosed m hm name hused
    have hb := modelBlock_mem_document preludeText hm
    cases hused with
    | index i hi hname =>
      obtain ⟨line, hline, hname⟩ := exists_mem_indexes_iff.mpr ⟨i, hi, hname⟩
      exact hclosed.indexes _ hb line hline name hname
    | source r hr hname =>
      obtain ⟨l, hl, hname⟩ := exists_mem_fields_iff.mpr ⟨r, hr, hname⟩
      exact hclosed.fields _ hb l hl name hname
    | reference m' hm' r hr hto hname =>
      have hsource := Schema.sourceFields_ne_nil_of_valid hvalid hm' hr hname
      obtain ⟨l, hl, htype, hname⟩ := exists_mem_references_iff.mpr ⟨r, hr, hto, hsource, hname⟩
      obtain ⟨b, hb, heq, hcolumns⟩ := hclosed.references _
        (modelBlock_mem_document preludeText hm') l hl name hname
      -- The block at the other end is that of the model, since no two models share a name.
      obtain ⟨target, htarget, rfl⟩ := mem_models_document_iff.mp hb
      rwa [List.inj_on_of_nodup_map hnames htarget hm (heq.trans htype)] at hcolumns
  · intro hfields
    constructor
    case fields =>
      intro b hb l hl name hname
      obtain ⟨m, hm, rfl⟩ := mem_models_document_iff.mp hb
      obtain ⟨r, hr, hname⟩ := exists_mem_fields_iff.mp ⟨l, hl, hname⟩
      exact hfields m hm name (.source r hr hname)
    case references =>
      intro b hb l hl name hname
      obtain ⟨m, hm, rfl⟩ := mem_models_document_iff.mp hb
      obtain ⟨r, hr, htype, hsource, hname⟩ := exists_mem_references_iff.mp ⟨l, hl, rfl, hname⟩
      obtain ⟨-, -, target, htarget, heq, -⟩ :=
        Schema.sides_of_declared hvalid hm hr fun h => hsource h.1
      exact ⟨modelBlock target, modelBlock_mem_document preludeText htarget,
        heq.trans htype, hfields target htarget name (.reference m hm r hr heq.symm hname)⟩
    case indexes =>
      intro b hb line hline name hname
      obtain ⟨m, hm, rfl⟩ := mem_models_document_iff.mp hb
      obtain ⟨i, hi, hname⟩ := exists_mem_indexes_iff.mp ⟨line, hline, hname⟩
      exact hfields m hm name (.index i hi hname)

end Prisma

namespace Graph

open Prisma

/-- Where a report has no errors, every column that is referred to is stored on the right model
under the name in use; the document is closed if the names in use are also names of fields. -/
theorem closed_document_iff {policy : UnresolvedPolicy} {g : Graph} {s : Schema}
    (h : g.normalize policy = .ok s) (hvalid : s.validate.errors = []) (preludeText : String) :
    (∀ m ∈ s.models, ∀ name, s.UsesColumn m name → ∃ c ∈ m.columns, c.canonicalName = name) ∧
      ((document preludeText s).Closed ↔
        ∀ m ∈ s.models, ∀ name, s.UsesColumn m name → ∃ c ∈ m.columns, c.fieldName = name) := by
  have hnames := distinctNames_of_normalize h
  exact ⟨fun m hm name hused => hused.exists_column hvalid hnames hm,
    closed_document_iff_of_valid hvalid hnames preludeText⟩

/-- Articles with an index and a key over a column, which is stored under its own name or under
another one than that of its field. -/
def articles (authorField : String) : Graph where
  version := none
  entries := [
    .table ((TableDeclaration.ofName "User").addColumn (.ofName "id" .text "text")),
    .table {
      binding := "posts", name := "Post"
      columns :=
        [{ ColumnDeclaration.ofName "author_id" .text "text" with fieldName := authorField }]
      indexes := some [⟨"by_author", ["author_id"], none, none⟩]
      foreignKeys := [⟨["author_id"], "User", ["id"]⟩] },
    .relations ⟨"postRelations", "Post", [⟨"author", .one, "", "User", none⟩]⟩]

theorem closed_document_iff_articles :
    ∃ s, (articles "author_id").normalize .error = .ok s ∧ s.validate.errors = [] ∧
      (document defaultPrelude s).Closed := by
  have h : (articles "author_id").normalize .error = .ok (articles "author_id").schema := rfl
  have hvalid : (articles "author_id").schema.validate.errors = [] := rfl
  obtain ⟨hstored, hclosed⟩ := closed_document_iff h hvalid defaultPrelude
  have hsame : ∀ m ∈ (articles "author_id").schema.models, ∀ c ∈ m.columns,
      c.fieldName = c.canonicalName := by
    decide
  refine ⟨_, h, hvalid, hclosed.mpr fun m hm name hused => ?_⟩
  obtain ⟨c, hc, hname⟩ := hstored m hm name hused
  exact ⟨c, hc, (hsame m hm c hc).trans hname⟩

/-- A report without errors does not make the document closed. -/
theorem not_closed_document_of_valid :
    ¬∀ (policy : UnresolvedPolicy) (g : Graph) (s : Schema) (preludeText : String),
      g.normalize policy = .ok s → s.validate.errors = [] → (document preludeText s).Closed := by
  intro hall
  let s := (articles "authorId").schema
  have hclosed := hall .error (articles "authorId") s defaultPrelude rfl rfl
  have hm : s.models[1] ∈ s.models := List.getElem_mem (by decide)
  have hused : s.UsesColumn s.models[1] "author_id" :=
    .index ⟨.normal, "by_author", ["author_id"]⟩ (by decide) (by decide)
  have hfield :=
    (closed_document_iff_of_valid rfl (by decide) defaultPrelude).mp hclosed _ hm _ hused
  exact absurd hfield (by decide)

end Graph
end Schemata
