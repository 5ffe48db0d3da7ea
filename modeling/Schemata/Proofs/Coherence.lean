import Schemata.Proofs.Columns
import Schemata.Proofs.References
/-!
# How the marks of a column go together

Classification settles it, whatever a declaration says (`Column.Coherent`). Normalization looks up
the enums of all declarations, those included that others replace, so that validation of a
normalized schema finds no enum unknown.
-/

namespace Schemata

/-- The marks of a column fit its type. -/
structure Column.Coherent (c : Column) : Prop where
  array : c.isArray = true → c.type = .text ∨ c.type = .json
  enum : (∃ name, c.enumName = some name) ↔ c.type = .enum
  length : ∀ n, c.lengthHint = some n → c.type = .varchar
  generated : c.hasGeneratedId = true ↔
    c.type = .text ∧ c.isPrimary = true ∧ c.isArray = false ∧ c.defaultValue = none
  generatedDefault : c.hasGeneratedId = true → c.hasDefault = true

theorem ColumnDeclaration.coherent_of_classify {c : ColumnDeclaration} {table : String}
    {column : Column} (h : c.classify table = .ok column) : column.Coherent := by
  obtain ⟨type, isArray, htype, rfl⟩ := exists_type_of_classify h
  have hcases := classifyType_cases htype
  constructor
  case array =>
    intro harray
    obtain ⟨-, -, -, hscalar⟩ | ⟨-, hholds⟩ := hcases
    · exact absurd (hscalar.symm.trans harray) (by decide)
    · exact hholds harray
  case enum =>
    show (∃ name, (if type = .enum then c.enumName else none) = some name) ↔ type = .enum
    obtain ⟨-, hnamed, henum, -⟩ | ⟨hother, -⟩ := hcases
    · rw [if_pos henum]
      exact iff_of_true hnamed henum
    · rw [if_neg hother]
      exact iff_of_false (fun ⟨_, hname⟩ => by cases hname) hother
  case length =>
    show ∀ n, (if type = .varchar then _ else none) = some n → type = .varchar
    intro n hn
    split at hn
    · assumption
    · cases hn
  case generated =>
    show c.generatesId type isArray = true ↔ _
    simp only [generatesId, Bool.and_eq_true, decide_eq_true_iff, Bool.not_eq_true',
      Option.isNone_iff_eq_none, and_assoc]
    rfl
  case generatedDefault =>
    intro hgenerated
    show (c.hasDefault || c.generatesId type isArray) = true
    exact Bool.or_eq_true_iff.mpr (.inr hgenerated)

namespace Schema

variable {s : Schema}

theorem isSome_enum?_iff {name : String} :
    (s.enum? name).isSome = true ↔ ∃ e ∈ s.enums, e.canonicalName = name := by
  simp only [enum?, List.find?_isSome, beq_iff_eq]

/-- What is wrong with an index is mended in its columns. -/
theorem unknownEnum_not_mem_indexErrors (m on : Model) (c : Column) :
    unknownEnum m c ∉ indexErrors on := by
  intro hmem
  obtain ⟨i, -, hi⟩ := List.mem_flatMap.mp hmem
  obtain ⟨field, -, heq⟩ := List.mem_map.mp hi
  have hsuggestion := congrArg Finding.suggestion heq
  simp [unknownIndexField, unknownEnum, String.ext_iff, toString] at hsuggestion

/-- What is wrong with a relation is a matter of lengths, or is mended in its columns, or not at
all. -/
theorem unknownEnum_not_mem_relationReport (m on : Model) (c : Column) (r : OneRelation) :
    unknownEnum m c ∉ (s.relationReport on r).errors := by
  have hfields (on' : Model) (fields : List String) :
      unknownEnum m c ∉ unknownFields on r on' fields := by
    intro hmem
    obtain ⟨field, -, heq⟩ := List.mem_map.mp hmem
    have hsuggestion := congrArg Finding.suggestion heq
    simp [unknownRelationField, unknownEnum, String.ext_iff, toString] at hsuggestion
  have hlengths : unknownEnum m c ≠ unequalLengths on r := fun heq => by
    have hkind := congrArg Finding.kind heq
    cases hkind
  have hmodel : unknownEnum m c ≠ unknownModel on r := fun heq => by
    have hsuggestion := congrArg Finding.suggestion heq
    cases hsuggestion
  unfold relationReport
  split
  · exact List.not_mem_nil
  · simp only [Report.ofErrors, List.mem_append, not_or]
    refine ⟨⟨?_, hfields on r.sourceFields⟩, ?_⟩
    · split
      · exact List.not_mem_nil
      · exact fun hmem => hlengths (List.mem_singleton.mp hmem)
    · split
      · exact hfields _ r.referenceFields
      · exact fun hmem => hmodel (List.mem_singleton.mp hmem)

theorem unknownEnum_not_mem_errors (hnone : ∀ m ∈ s.models, s.enumErrors m = []) (m : Model)
    (c : Column) : unknownEnum m c ∉ s.validate.errors := by
  rw [errors_validate, List.mem_flatMap]
  rintro ⟨on, hon, hmem⟩
  rw [errors_modelReport, hnone on hon, List.nil_append, List.mem_append, List.mem_flatMap] at hmem
  obtain hindex | ⟨r, -, hrelation⟩ := hmem
  · exact unknownEnum_not_mem_indexErrors m on c hindex
  · exact unknownEnum_not_mem_relationReport m on c r hrelation

end Schema

namespace Graph

variable {policy : UnresolvedPolicy} {g : Graph} {s : Schema} {m : Model} {c : Column}

theorem exists_classify_of_mem_columns (h : g.normalize policy = .ok s) (hm : m ∈ s.models)
    (hc : c ∈ m.columns) :
    ∃ t ∈ g.tables, ∃ d ∈ t.columns, d.classify t.name = .ok c := by
  obtain ⟨t, ht, rfl, hcolumns, -⟩ := exists_table_of_mem_models h hm
  obtain ⟨d, hd, hclassify⟩ := (TableDeclaration.mem_classifiedColumns_iff hcolumns).mp hc
  exact ⟨t, ht, d, TableDeclaration.mem_columns_of_mem_standing hd, hclassify⟩

/-- The enum of a column is one that the graph declares. -/
theorem exists_enum_of_mem_columns (h : g.normalize policy = .ok s) (hm : m ∈ s.models)
    (hc : c ∈ m.columns) {name : String} (hname : c.enumName = some name) :
    ∃ e ∈ s.enums, e.canonicalName = name := by
  obtain ⟨t, ht, d, hd, hclassify⟩ := exists_classify_of_mem_columns h hm hc
  obtain ⟨hfaults, rfl⟩ := normalize_eq_ok_iff.mp h
  obtain ⟨hstorage, hdeclared⟩ := ColumnDeclaration.enumName_of_classify hclassify hname
  obtain ⟨e, he, heq⟩ := (faults_eq_nil_iff.mp hfaults).enumsDeclared t ht d hd hstorage
  rw [hdeclared, Option.some.injEq] at heq
  exact ⟨e.toEnumType, List.mem_map_of_mem he, heq.symm⟩

theorem coherent_of_mem_columns (h : g.normalize policy = .ok s) (hm : m ∈ s.models)
    (hc : c ∈ m.columns) : c.Coherent := by
  obtain ⟨t, -, d, -, hclassify⟩ := exists_classify_of_mem_columns h hm hc
  exact ColumnDeclaration.coherent_of_classify hclassify

theorem enumErrors_eq_nil_of_normalize (h : g.normalize policy = .ok s) (hm : m ∈ s.models) :
    s.enumErrors m = [] := by
  rw [Schema.enumErrors, List.map_eq_nil_iff, List.filter_eq_nil_iff]
  intro c hc hreported
  rw [Bool.and_eq_true, decide_eq_true_iff, Bool.not_eq_true'] at hreported
  obtain ⟨name, hname⟩ := (coherent_of_mem_columns h hm hc).enum.mpr hreported.1
  have hknown := Schema.isSome_enum?_iff.mpr (exists_enum_of_mem_columns h hm hc hname)
  rw [Schema.knowsEnumOf, hname, Option.any_some, hknown] at hreported
  cases hreported.2

/-- The marks of every column of a normalized schema fit its type, and its enum is one of the
schema; so validation reports no unknown enum. -/
theorem coherent_columns_of_normalize (h : g.normalize policy = .ok s) :
    (∀ m ∈ s.models, ∀ c ∈ m.columns, c.Coherent ∧
      ∀ name, c.enumName = some name → (s.enum? name).isSome = true) ∧
    ∀ m c, Schema.unknownEnum m c ∉ s.validate.errors := by
  constructor
  · intro m hm c hc
    refine ⟨coherent_of_mem_columns h hm hc, fun name hname => ?_⟩
    exact Schema.isSome_enum?_iff.mpr (exists_enum_of_mem_columns h hm hc hname)
  · apply Schema.unknownEnum_not_mem_errors
    exact fun m hm => enumErrors_eq_nil_of_normalize h hm

/-- Items with a generated key, a kind that is first declared as a text, and a length and an array
among their columns. -/
def items : Graph where
  version := none
  entries := [
    .table ((TableDeclaration.ofName "Item")
      |>.addColumn (ColumnDeclaration.ofName "id" .text "text").primaryKey
      |>.addColumn (.ofName "kind" .text "text")
      |>.addColumn (.ofName "title" .varchar "varchar(40)")
      |>.addColumn (.ofName "tags" .array "text[]")
      |>.addColumn
        { ColumnDeclaration.ofName "kind" .enum "kind" with enumName := some "ItemKind" }),
    .enum ⟨"itemKind", "ItemKind", ["book"]⟩]

theorem coherent_columns_of_normalize_items :
    ∃ s m c, items.normalize .error = .ok s ∧ m ∈ s.models ∧ c ∈ m.columns ∧ c.Coherent ∧
      c.enumName = some "ItemKind" ∧ (s.enum? "ItemKind").isSome = true ∧
      ∀ m c, Schema.unknownEnum m c ∉ s.validate.errors := by
  have h : items.normalize .error = .ok items.schema := rfl
  have hm : items.schema.models[0] ∈ items.schema.models := List.getElem_mem (by decide)
  have hc : items.schema.models[0].columns[1] ∈ items.schema.models[0].columns :=
    List.getElem_mem (by decide)
  obtain ⟨hcoherent, hreported⟩ := coherent_columns_of_normalize h
  obtain ⟨hmarks, hknown⟩ := hcoherent _ hm _ hc
  exact ⟨_, _, _, h, hm, hc, hmarks, rfl, hknown "ItemKind" rfl, hreported⟩

end Graph
end Schemata
