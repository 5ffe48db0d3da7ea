import Mathlib.Data.List.Nodup
import Schemata.Proofs.Assembly
import Schemata.Proofs.Resolution
/-!
# Which graphs describe a schema

`normalize_eq` gives normalization as the faults of a graph in their order and the schema that
the graph describes if it has none. A graph has none exactly if it is well formed.
-/

namespace Schemata

namespace ColumnDeclaration

/-- Whether one of the column types fits a column. -/
def Classifiable (c : ColumnDeclaration) : Prop :=
  match c.storage with
  | .enum => ∃ name, c.enumName = some name
  | .array => Text.trim c.sqlType = "text[]" ∨ Text.trim c.sqlType = "jsonb[]"
  | .custom => Text.trim c.sqlType = "bytea"
  | .other _ => False
  | _ => True

theorem classify_ok_iff_classifyType_ok {c : ColumnDeclaration} {table : String} :
    (∃ column, c.classify table = .ok column) ↔ ∃ type, c.classifyType table = .ok type := by
  rw [classify]
  cases c.classifyType table <;> simp [Except.map]

theorem classify_ok_iff {c : ColumnDeclaration} {table : String} :
    (∃ column, c.classify table = .ok column) ↔ c.Classifiable := by
  rw [classify_ok_iff_classifyType_ok, classifyType, Classifiable]
  cases c.storage
  case enum => cases c.enumName <;> simp [refused]
  case array =>
    by_cases htext : Text.trim c.sqlType = "text[]"
    · simp [htext]
    · by_cases hjson : Text.trim c.sqlType = "jsonb[]" <;> simp [htext, hjson, refused]
  case custom => by_cases hbytea : Text.trim c.sqlType = "bytea" <;> simp [hbytea, refused]
  case other name => simp [refused]
  all_goals simp

end ColumnDeclaration

namespace TableDeclaration

theorem columnFaults_eq_nil_iff (t : TableDeclaration) :
    t.columnFaults = [] ↔ ∀ c ∈ t.columns, c.Classifiable := by
  simp only [columnFaults, List.filterMap_eq_nil_iff, fault?_eq_none_iff,
    ColumnDeclaration.classify_ok_iff]

theorem indexFaults_eq_nil_iff (t : TableDeclaration) :
    t.indexFaults = [] ↔
      ∀ ds, t.indexes = some ds → ∀ d ∈ ds, ∃ index, d.toIndex t.name = .ok index := by
  simp only [indexFaults, List.filterMap_eq_nil_iff, fault?_eq_none_iff]
  cases t.indexes with
  | none => simp
  | some ds => simp

theorem linkFault?_eq_none_iff {enums : List EnumType} {t : TableDeclaration}
    {c : ColumnDeclaration} :
    t.linkFault? enums c = none ↔
      (c.storage = .enum → ∀ name, c.enumName = some name → ∃ e ∈ enums, e.canonicalName = name) := by
  unfold linkFault?
  cases c.enumName with
  | none => simp
  | some name => simp

end TableDeclaration

namespace Graph

theorem mem_relationDeclarations_iff {g : Graph} {source : String} {d : RelationDeclaration} :
    (source, d) ∈ g.relationDeclarations ↔
      ∃ set ∈ g.relationSets, d ∈ set.relations ∧ d.source set = source := by
  simp only [relationDeclarations, List.mem_flatMap, List.mem_map, Prod.mk.injEq]
  constructor
  · rintro ⟨set, hset, _, hd, hsource, rfl⟩
    exact ⟨set, hset, hd, hsource⟩
  · rintro ⟨set, hset, hd, hsource⟩
    exact ⟨set, hset, d, hd, hsource, rfl⟩

/-- What normalization asks of a graph. -/
structure WellFormed (policy : UnresolvedPolicy) (g : Graph) : Prop where
  cardinality : ∀ set ∈ g.relationSets, ∀ d ∈ set.relations,
    d.cardinality = .one ∨ d.cardinality = .many
  /-- A relation to one row states its columns on both sides, or the first table of its source's
  name has a foreign key to the referenced table. -/
  columnsKnown : policy = .error → ∀ set ∈ g.relationSets, ∀ d ∈ set.relations,
    d.cardinality = .one →
      (∃ s, d.settings = some s ∧ s.fields ≠ [] ∧ s.references ≠ []) ∨
        ∃ t, g.tableNamed? (d.source set) = some t ∧
          ∃ key ∈ t.foreignKeys, key.foreignTable = d.referencedTable
  distinctNames : (g.tables.map (·.name)).Nodup
  /-- Every column, those included that a later one of the same field name replaces. -/
  classifiable : ∀ t ∈ g.tables, ∀ c ∈ t.columns, c.Classifiable
  indexesAccepted : ∀ t ∈ g.tables, ∀ ds, t.indexes = some ds →
    ∀ d ∈ ds, ∃ index, d.toIndex t.name = .ok index
  enumsDeclared : ∀ t ∈ g.tables, ∀ c ∈ t.columns, c.storage = .enum →
    ∃ e ∈ g.enums, c.enumName = some e.name

/-- All the faults of a graph in their order. -/
def faults (policy : UnresolvedPolicy) (g : Graph) : List NormalizeError :=
  g.relationFaults policy g.relationDeclarations ++ tableFaults g.enumTypes [] g.tables

/-- The schema that a graph without faults describes. -/
def schema (g : Graph) : Schema :=
  let models := g.tables.map (·.model g.resolved)
  { models
    enums := g.enumTypes
    relations := g.resolved.relations
    warnings := g.resolved.warnings
    summary := Schema.summarize models g.enumTypes g.resolved.relations g.resolved.warnings }

theorem normalize_eq (policy : UnresolvedPolicy) (g : Graph) :
    g.normalize policy = firstFaultOr (g.faults policy) g.schema := by
  rw [normalize, resolve_eq]
  refine firstFaultOr_bind _ _ _ _ _ ?_
  rw [toModels_eq]
  exact firstFaultOr_map _ _ _

theorem normalize_eq_ok_iff {policy : UnresolvedPolicy} {g : Graph} {s : Schema} :
    g.normalize policy = .ok s ↔ g.faults policy = [] ∧ g.schema = s := by
  rw [normalize_eq, firstFaultOr_eq_ok_iff]

theorem findsColumns_eq_true_iff {g : Graph} {source : String} {d : RelationDeclaration} :
    g.findsColumns source d = true ↔
      (∃ s, d.settings = some s ∧ s.fields ≠ [] ∧ s.references ≠ []) ∨
        ∃ t, g.tableNamed? source = some t ∧
          ∃ key ∈ t.foreignKeys, key.foreignTable = d.referencedTable := by
  simp only [findsColumns, RelationDeclaration.statesColumns, keyFor?,
    TableDeclaration.foreignKeyTo?, Bool.or_eq_true, Option.any_eq_true, Bool.and_eq_true,
    Bool.not_eq_true', List.isEmpty_eq_false_iff, Option.isSome_bind, List.find?_isSome,
    beq_iff_eq]

theorem relationFault?_eq_none_iff {policy : UnresolvedPolicy} {g : Graph} {source : String}
    {d : RelationDeclaration} :
    g.relationFault? policy source d = none ↔
      (d.cardinality = .one ∨ d.cardinality = .many) ∧
        (policy = .error → d.cardinality = .one → g.findsColumns source d = true) := by
  unfold relationFault?
  cases d.cardinality <;> simp

theorem tableFaults_eq_nil_iff {enums : List EnumType} {seen : List String}
    {ts : List TableDeclaration} :
    tableFaults enums seen ts = [] ↔
      (ts.map (·.name)).Nodup ∧ (∀ t ∈ ts, t.name ∉ seen) ∧ ∀ t ∈ ts, t.faults enums = [] := by
  induction ts generalizing seen with
  | nil => simp [tableFaults]
  | cons t ts ih =>
    rw [tableFaults, List.append_eq_nil_iff, List.append_eq_nil_iff, ih, List.map_cons,
      List.nodup_cons]
    -- The names that the rest must avoid are those seen before and the one in front of it.
    constructor
    · rintro ⟨hseen, ht, hnodup, hfresh, hts⟩
      have hnew : t.name ∉ seen := fun h => by
        rw [if_pos h] at hseen
        cases hseen
      refine ⟨⟨fun hmem => ?_, hnodup⟩, ?_, List.forall_mem_cons.mpr ⟨ht, hts⟩⟩
      · obtain ⟨t', ht', hname⟩ := List.mem_map.mp hmem
        exact hfresh t' ht' (hname ▸ List.mem_cons_self)
      · exact List.forall_mem_cons.mpr ⟨hnew, fun t' ht' h => hfresh t' ht' (List.mem_cons_of_mem _ h)⟩
    · rintro ⟨⟨hnotin, hnodup⟩, hfresh, hfaults⟩
      obtain ⟨hnew, hfresh⟩ := List.forall_mem_cons.mp hfresh
      obtain ⟨ht, hts⟩ := List.forall_mem_cons.mp hfaults
      refine ⟨if_neg hnew, ht, hnodup, fun t' ht' h => ?_, hts⟩
      rcases List.mem_cons.mp h with heq | h
      · exact hnotin (heq ▸ List.mem_map_of_mem ht')
      · exact hfresh t' ht' h

theorem relationFaults_eq_nil_iff {policy : UnresolvedPolicy} {g : Graph} :
    g.relationFaults policy g.relationDeclarations = [] ↔
      ∀ set ∈ g.relationSets, ∀ d ∈ set.relations,
        (d.cardinality = .one ∨ d.cardinality = .many) ∧
          (policy = .error → d.cardinality = .one → g.findsColumns (d.source set) d = true) := by
  rw [relationFaults, List.filterMap_eq_nil_iff]
  constructor
  · intro h set hset d hd
    exact relationFault?_eq_none_iff.mp
      (h (d.source set, d) (mem_relationDeclarations_iff.mpr ⟨set, hset, hd, rfl⟩))
  · rintro h ⟨source, d⟩ hmem
    obtain ⟨set, hset, hd, rfl⟩ := mem_relationDeclarations_iff.mp hmem
    exact relationFault?_eq_none_iff.mpr (h set hset d hd)

theorem linkFaults_eq_nil_iff {g : Graph} {t : TableDeclaration}
    (hcolumns : ∀ c ∈ t.columns, c.Classifiable) :
    t.linkFaults g.enumTypes = [] ↔
      ∀ c ∈ t.columns, c.storage = .enum → ∃ e ∈ g.enums, c.enumName = some e.name := by
  simp only [TableDeclaration.linkFaults, List.filterMap_eq_nil_iff,
    TableDeclaration.linkFault?_eq_none_iff, enumTypes, List.mem_map]
  constructor
  · intro h c hc henum
    -- A column that names no enum has passed the link check, but not its classification.
    have hnamed := hcolumns c hc
    rw [ColumnDeclaration.Classifiable, henum] at hnamed
    obtain ⟨name, hname⟩ := hnamed
    obtain ⟨_, ⟨e, he, rfl⟩, rfl⟩ := h c hc henum name hname
    exact ⟨e, he, hname⟩
  · intro h c hc henum name hname
    obtain ⟨e, he, hdeclared⟩ := h c hc henum
    rw [hname, Option.some.injEq] at hdeclared
    exact ⟨e.toEnumType, ⟨e, he, rfl⟩, hdeclared.symm⟩

theorem faults_eq_nil_iff {policy : UnresolvedPolicy} {g : Graph} :
    g.faults policy = [] ↔ g.WellFormed policy := by
  rw [faults, List.append_eq_nil_iff, relationFaults_eq_nil_iff, tableFaults_eq_nil_iff]
  simp only [TableDeclaration.faults, List.append_eq_nil_iff]
  constructor
  · rintro ⟨hrelations, hnames, -, htables⟩
    have hcolumns : ∀ t ∈ g.tables, ∀ c ∈ t.columns, c.Classifiable :=
      fun t ht => t.columnFaults_eq_nil_iff.mp (htables t ht).1.1
    exact {
      cardinality := fun set hset d hd => (hrelations set hset d hd).1
      columnsKnown := fun hpolicy set hset d hd hone =>
        findsColumns_eq_true_iff.mp ((hrelations set hset d hd).2 hpolicy hone)
      distinctNames := hnames
      classifiable := hcolumns
      indexesAccepted := fun t ht => t.indexFaults_eq_nil_iff.mp (htables t ht).1.2
      enumsDeclared := fun t ht => (linkFaults_eq_nil_iff (hcolumns t ht)).mp (htables t ht).2 }
  · intro h
    refine ⟨fun set hset d hd => ⟨h.cardinality set hset d hd, fun hpolicy hone => ?_⟩,
      h.distinctNames, fun _ _ => List.not_mem_nil, fun t ht => ⟨⟨?_, ?_⟩, ?_⟩⟩
    · exact findsColumns_eq_true_iff.mpr (h.columnsKnown hpolicy set hset d hd hone)
    · exact t.columnFaults_eq_nil_iff.mpr (h.classifiable t ht)
    · exact t.indexFaults_eq_nil_iff.mpr (h.indexesAccepted t ht)
    · exact (linkFaults_eq_nil_iff (h.classifiable t ht)).mpr (h.enumsDeclared t ht)

/-- A model comes from the table of its name. -/
theorem exists_table_of_mem_models {policy : UnresolvedPolicy} {g : Graph} {s : Schema}
    (h : g.normalize policy = .ok s) {m : Model} (hm : m ∈ s.models) :
    ∃ t ∈ g.tables, t.model g.resolved = m ∧ t.columnFaults = [] ∧
      g.tableNamed? m.canonicalName = some t := by
  obtain ⟨hfaults, rfl⟩ := normalize_eq_ok_iff.mp h
  have hwellFormed := faults_eq_nil_iff.mp hfaults
  obtain ⟨t, ht, rfl⟩ := List.mem_map.mp hm
  refine ⟨t, ht, rfl, t.columnFaults_eq_nil_iff.mpr (hwellFormed.classifiable t ht), ?_⟩
  obtain ⟨t', ht'⟩ : ∃ t', g.tableNamed? t.name = some t' := by
    rw [← Option.isSome_iff_exists, tableNamed?, List.find?_isSome]
    exact ⟨t, ht, beq_self_eq_true _⟩
  have hname : t'.name = t.name := by
    have hfound := List.find?_some ht'
    exact eq_of_beq hfound
  have hsame := List.inj_on_of_nodup_map hwellFormed.distinctNames
    (List.mem_of_find?_eq_some ht') ht hname
  exact hsame ▸ ht'

theorem nodup_columns_of_normalize {policy : UnresolvedPolicy} {g : Graph} {s : Schema}
    (h : g.normalize policy = .ok s) {m : Model} (hm : m ∈ s.models) :
    (m.columns.map (·.fieldName)).Nodup := by
  obtain ⟨-, rfl⟩ := normalize_eq_ok_iff.mp h
  obtain ⟨t, -, rfl⟩ := List.mem_map.mp hm
  exact t.nodup_classifiedColumns

/-- Normalization accepts exactly the well-formed graphs, with a model for each table and an enum
for each enum declaration, and refuses all others with their first fault. -/
theorem normalize_accepts_or_reports_first_fault (policy : UnresolvedPolicy) (g : Graph) :
    ((∃ s, g.normalize policy = .ok s) ↔ g.WellFormed policy) ∧
      (∀ e, g.normalize policy = .error e ↔ (g.faults policy).head? = some e) ∧
      ∀ s, g.normalize policy = .ok s →
        s.models.map (fun m => (m.canonicalName, m.binding)) =
            g.tables.map (fun t => (t.name, t.binding)) ∧
          s.enums.map (fun e => (e.exportName, e.canonicalName, e.values)) =
            g.enums.map (fun d => (d.binding, d.name, d.values)) := by
  refine ⟨?_, fun e => ?_, fun s hs => ?_⟩
  · simp only [normalize_eq_ok_iff, exists_and_left, exists_eq', and_true]
    exact faults_eq_nil_iff
  · rw [normalize_eq, firstFaultOr_eq_error_iff]
  · obtain ⟨-, rfl⟩ := normalize_eq_ok_iff.mp hs
    simp only [schema, enumTypes, List.map_map]
    exact ⟨rfl, rfl⟩

/-- A graph with five faults, and one more where relations need columns. The column that cannot be
classified gives its place to a later one of its field name. -/
def faultyPlaces : Graph where
  version := none
  entries := [
    .table {
      binding := "places", name := "Place"
      columns := [
        { ColumnDeclaration.ofName "area" .custom "polygon" with fieldName := "id" },
        { ColumnDeclaration.ofName "kind" .enum "kind" with enumName := some "Kind" },
        .ofName "id" .text "text"]
      indexes := some [⟨"by_kind", [], none, none⟩]
      foreignKeys := [] },
    .table (.ofName "Place"),
    .relations ⟨"placeRelations", "Place", [
      ⟨"owner", .one, "", "User", none⟩, ⟨"visits", .other "few", "", "Visit", none⟩]⟩]

example : faultyPlaces.faults .error = [
    .unresolvedRelationFields "Place" "owner" "User",
    .malformedRelation "Place" "visits" "few",
    .unclassifiableColumn "Place" "area" "custom" "polygon" "unsupported custom column type",
    .ambiguousIndex "Place" "by_kind" "index has no columns",
    .unclassifiableColumn "Place" "kind" "enum" "kind" "unknown enum 'Kind'",
    .duplicateModel "Place"] := by
  decide

/-- The same tables and relations without the faults. -/
def mendedPlaces : Graph where
  version := none
  entries := [
    .enum ⟨"kindEnum", "Kind", ["park"]⟩,
    .table {
      binding := "places", name := "Place"
      columns := [
        { ColumnDeclaration.ofName "kind" .enum "kind" with enumName := some "Kind" },
        .ofName "id" .text "text"]
      indexes := some [⟨"by_kind", ["kind"], none, none⟩]
      foreignKeys := [⟨["id"], "User", ["id"]⟩] },
    .relations ⟨"placeRelations", "Place", [
      ⟨"owner", .one, "", "User", none⟩, ⟨"visits", .many, "", "Visit", none⟩]⟩]

theorem normalize_accepts_or_reports_first_fault_places :
    faultyPlaces.normalize .warn = .error (.malformedRelation "Place" "visits" "few") ∧
      faultyPlaces.normalize .error =
        .error (.unresolvedRelationFields "Place" "owner" "User") ∧
      ∃ s, mendedPlaces.normalize .error = .ok s ∧
        s.models.map (fun m => (m.canonicalName, m.binding)) = [("Place", "places")] := by
  refine ⟨?_, ?_, mendedPlaces.schema, rfl, ?_⟩
  · exact ((normalize_accepts_or_reports_first_fault .warn faultyPlaces).2.1 _).mpr rfl
  · exact ((normalize_accepts_or_reports_first_fault .error faultyPlaces).2.1 _).mpr rfl
  · exact ((normalize_accepts_or_reports_first_fault .error mendedPlaces).2.2 _ rfl).1

end Graph
end Schemata
