import Schemata.Proofs.Unresolved
/-!
# Tables that nothing starts from

`normalize_of_unrelated`: a table of a new name, from which no relation to one row starts, gives
its graph one model more and leaves all else of the schema as it is. Resolution looks up the
tables that relations to one row start from and no others, so it does not notice the table. A
relation that leads to the table, or is declared on it and leads to many rows, was resolved
without it; now it shows on the new model too.
-/

namespace Schemata.Graph

/-- A table that a graph knows nothing of: its name is new, and no relation to one row starts from
it. -/
structure Unrelated (g : Graph) (t : TableDeclaration) : Prop where
  newName : ∀ t' ∈ g.tables, t'.name ≠ t.name
  noSource : ∀ set ∈ g.relationSets, ∀ d ∈ set.relations,
    d.cardinality = .one → d.source set ≠ t.name

/-- A table without faults of its own. -/
structure Acceptable (g : Graph) (t : TableDeclaration) (columns : List Column)
    (indexes : List Index) : Prop where
  columns : t.toColumns = .ok columns
  indexes : t.toIndexes = .ok indexes
  enums : t.checkEnums g.enumTypes = .ok ()

/-- The graph with other entries. -/
def withEntries (g : Graph) (entries : List Entry) : Graph := { g with entries }

/-- What a table shows of relations that were there before it: those to one row of it, and those
from it to many rows. -/
def viewsOn (relations : List Relation) (t : TableDeclaration) : List Relation :=
  (relations.filter fun r => r.isOne && r.referenceModel == t.name).map
      (·.withDirection .inbound) ++
    (relations.filter fun r => !r.isOne && r.sourceModel == t.name).map (·.withDirection .out)

section Insertion

variable {g : Graph} {before after : List Entry} {t : TableDeclaration}

theorem tables_of_entries (hentries : g.entries = before ++ after) :
    g.tables = (g.withEntries before).tables ++ (g.withEntries after).tables := by
  rw [tables, hentries]
  exact List.filterMap_append

theorem tables_insert :
    (g.withEntries (before ++ .table t :: after)).tables =
      (g.withEntries before).tables ++ t :: (g.withEntries after).tables :=
  List.filterMap_append

theorem enumTypes_insert (hentries : g.entries = before ++ after) :
    (g.withEntries (before ++ .table t :: after)).enumTypes = g.enumTypes := by
  have henums : (g.withEntries (before ++ .table t :: after)).enums = g.enums := by
    rw [enums, enums, hentries, withEntries, List.filterMap_append, List.filterMap_append]
    rfl
  rw [enumTypes, henums, enumTypes]

theorem relationDeclarations_insert (hentries : g.entries = before ++ after) :
    (g.withEntries (before ++ .table t :: after)).relationDeclarations =
      g.relationDeclarations := by
  have hsets : (g.withEntries (before ++ .table t :: after)).relationSets = g.relationSets := by
    rw [relationSets, relationSets, hentries, withEntries, List.filterMap_append,
      List.filterMap_append]
    rfl
  rw [relationDeclarations, hsets, relationDeclarations]

/-- All other names lead to the same table as before. -/
theorem tableNamed?_insert (hentries : g.entries = before ++ after) {name : String}
    (hname : name ≠ t.name) :
    (g.withEntries (before ++ .table t :: after)).tableNamed? name = g.tableNamed? name := by
  have hother : (t.name == name) = false := beq_false_of_ne hname.symm
  rw [tableNamed?, tables_insert, List.find?_append, List.find?_cons, hother,
    ← List.find?_append, ← tables_of_entries hentries, tableNamed?]

namespace Unrelated

variable (ht : g.Unrelated t) (hentries : g.entries = before ++ after)

include ht

theorem source_ne {source : String} {d : RelationDeclaration}
    (hd : (source, d) ∈ g.relationDeclarations) (hone : d.cardinality = .one) :
    source ≠ t.name := by
  obtain ⟨set, hset, hmem, rfl⟩ := mem_relationDeclarations_iff.mp hd
  exact ht.noSource set hset d hmem hone

/-- No resolved relation to one row starts from the table. -/
theorem sourceModel_ne {r : Relation} (hr : r ∈ g.resolved.relations) (hone : r.isOne = true) :
    r.sourceModel ≠ t.name := by
  obtain ⟨source, d, hmem, ⟨hd, rfl⟩ | ⟨-, rfl⟩⟩ := (g.mem_resolved_iff r).mp hr
  · show (g.toOne source d).sourceModel ≠ t.name
    rw [sourceModel_toOne]
    exact ht.source_ne hmem hd
  · cases hone

theorem attachedTo_eq : g.resolved.attachedTo t.name = viewsOn g.resolved.relations t := by
  unfold ResolvedRelations.attachedTo viewsOn
  congr 2
  apply List.filter_congr
  intro r hr
  -- What is declared on the table can only lead to many rows.
  cases hone : r.isOne with
  | false => rfl
  | true => exact beq_false_of_ne (ht.sourceModel_ne hr hone)

include hentries

theorem tableNamed?_source {source : String} {d : RelationDeclaration}
    (hd : (source, d) ∈ g.relationDeclarations) (hone : d.cardinality = .one) :
    (g.withEntries (before ++ .table t :: after)).tableNamed? source = g.tableNamed? source :=
  tableNamed?_insert hentries (ht.source_ne hd hone)

theorem resolved_insert :
    (g.withEntries (before ++ .table t :: after)).resolved = g.resolved := by
  rw [resolved, relationDeclarations_insert hentries,
    resolution_congr_of_sources fun _ _ => ht.tableNamed?_source hentries, resolved]

theorem relationFaults_insert (policy : UnresolvedPolicy) :
    (g.withEntries (before ++ .table t :: after)).relationFaults policy
        (g.withEntries (before ++ .table t :: after)).relationDeclarations =
      g.relationFaults policy g.relationDeclarations := by
  rw [relationDeclarations_insert hentries]
  exact relationFaults_congr_of_sources policy fun _ _ => ht.tableNamed?_source hentries

theorem tableFaults_insert (hfaults : t.faults g.enumTypes = [])
    (h : tableFaults g.enumTypes [] g.tables = []) :
    tableFaults g.enumTypes [] (g.withEntries (before ++ .table t :: after)).tables = [] := by
  have htables := tables_of_entries hentries
  obtain ⟨hnodup, -, hall⟩ := tableFaults_eq_nil_iff.mp h
  -- The new table may as well stand in front: neither distinctness nor the faults of single
  -- tables depend on the order.
  have hperm : (g.withEntries (before ++ .table t :: after)).tables.Perm (t :: g.tables) := by
    rw [tables_insert, htables]
    exact List.perm_middle
  have hnew : t.name ∉ g.tables.map (·.name) := by
    intro hmem
    obtain ⟨t', ht', hname⟩ := List.mem_map.mp hmem
    exact ht.newName t' ht' hname
  rw [tableFaults_eq_nil_iff]
  refine ⟨?_, fun _ _ => List.not_mem_nil, fun t' ht' => ?_⟩
  · exact (hperm.map _).nodup_iff.mpr (List.nodup_cons.mpr ⟨hnew, hnodup⟩)
  · rcases List.mem_cons.mp (hperm.subset ht') with rfl | ht'
    · exact hfaults
    · exact hall t' ht'

end Unrelated

/-- What an acceptable table gives, in the terms of its model. -/
theorem Acceptable.gives {columns : List Column} {indexes : List Index}
    (h : g.Acceptable t columns indexes) :
    t.faults g.enumTypes = [] ∧ t.classifiedColumns = columns ∧ t.acceptedIndexes = indexes := by
  obtain ⟨hcolumns, hindexes, henums⟩ := h
  rw [t.toColumns_eq, firstFaultOr_eq_ok_iff] at hcolumns
  rw [TableDeclaration.toIndexes, mapM_eq_firstFaultOr, firstFaultOr_eq_ok_iff] at hindexes
  rw [t.checkEnums_eq, firstFaultOr_eq_ok_iff] at henums
  refine ⟨?_, hcolumns.2, hindexes.2⟩
  rw [TableDeclaration.faults, hcolumns.1, henums.1, TableDeclaration.indexFaults, hindexes.1]
  rfl

end Insertion

/-- A table that the graph knows nothing of is a model more, in the place of the table among the
others, and changes nothing else. -/
theorem normalize_of_unrelated {policy : UnresolvedPolicy} {g : Graph} {s : Schema}
    {before after : List Entry} {t : TableDeclaration} {columns : List Column}
    {indexes : List Index} (h : g.normalize policy = .ok s)
    (hentries : g.entries = before ++ after) (hunrelated : g.Unrelated t)
    (hacceptable : g.Acceptable t columns indexes) :
    ∃ s' ms₁ ms₂, (g.withEntries (before ++ .table t :: after)).normalize policy = .ok s' ∧
      s'.relations = s.relations ∧ s'.warnings = s.warnings ∧ s'.enums = s.enums ∧
      ms₁.map (·.canonicalName) = (g.withEntries before).tables.map (·.name) ∧
      ms₂.map (·.canonicalName) = (g.withEntries after).tables.map (·.name) ∧
      s.models = ms₁ ++ ms₂ ∧
      s'.models = ms₁ ++ ⟨t.name, t.binding, columns, viewsOn s.relations t, indexes⟩ :: ms₂ := by
  obtain ⟨hfaults, rfl⟩ := normalize_eq_ok_iff.mp h
  obtain ⟨hrelationFaults, htableFaults⟩ := List.append_eq_nil_iff.mp hfaults
  obtain ⟨hnofaults, rfl, rfl⟩ := hacceptable.gives
  have hresolved := hunrelated.resolved_insert hentries
  have henums : (g.withEntries (before ++ .table t :: after)).enumTypes = g.enumTypes :=
    enumTypes_insert hentries
  -- Relations have the faults that they had before, which is none, and the tables one more
  -- candidate, which is acceptable.
  have hnone : (g.withEntries (before ++ .table t :: after)).faults policy = [] := by
    rw [faults, hunrelated.relationFaults_insert hentries, hrelationFaults, henums,
      hunrelated.tableFaults_insert hentries hnofaults htableFaults]
    rfl
  refine ⟨_, (g.withEntries before).tables.map (·.model g.resolved),
    (g.withEntries after).tables.map (·.model g.resolved),
    normalize_eq_ok_iff.mpr ⟨hnone, rfl⟩, ?_, ?_, henums, ?_, ?_, ?_, ?_⟩
  · exact congrArg ResolvedRelations.relations hresolved
  · exact congrArg ResolvedRelations.warnings hresolved
  · rw [List.map_map]
    rfl
  · rw [List.map_map]
    rfl
  · show g.tables.map (·.model g.resolved) = _
    rw [tables_of_entries hentries, List.map_append]
  · show (g.withEntries (before ++ .table t :: after)).tables.map _ = _
    rw [hresolved, tables_insert, List.map_append, List.map_cons, TableDeclaration.model,
      hunrelated.attachedTo_eq]
    rfl

/-- A table with a foreign key to a table that is missing, and the relations between the two. -/
def orphanedPosts : Graph where
  version := none
  entries := [
    .table ((TableDeclaration.ofName "Post").addForeignKey ⟨["author"], "User", ["id"]⟩),
    .relations ⟨"postRelations", "Post", [⟨"author", .one, "", "User", none⟩]⟩,
    .relations ⟨"userRelations", "User", [⟨"posts", .many, "", "Post", none⟩]⟩]

/-- The missing table, behind the other. -/
def adoptedPosts : Graph :=
  let users := (TableDeclaration.ofName "User").addColumn (.ofName "id" .integer "integer")
  orphanedPosts.withEntries (orphanedPosts.entries.take 1 ++
    .table users :: orphanedPosts.entries.drop 1)

theorem normalize_of_unrelated_adoptedPosts :
    ∃ s s' post user, orphanedPosts.normalize .error = .ok s ∧ s.models = [post] ∧
      adoptedPosts.normalize .error = .ok s' ∧ s'.models = [post, user] ∧
      s'.relations = s.relations ∧ user.canonicalName = "User" ∧
      user.relations = s.relations.map fun r =>
        r.withDirection (if r.isOne then .inbound else .out) := by
  have hunrelated : orphanedPosts.Unrelated
      ((TableDeclaration.ofName "User").addColumn (.ofName "id" .integer "integer")) := by
    constructor <;> decide
  have haccepted : orphanedPosts.normalize .error = .ok orphanedPosts.schema := rfl
  obtain ⟨s', ms₁, ms₂, hs', hrelations, -, -, hms₁, hms₂, hmodels, hmodels'⟩ :=
    normalize_of_unrelated haccepted (List.take_append_drop 1 orphanedPosts.entries).symm
      hunrelated ⟨rfl, rfl, rfl⟩
  obtain ⟨post, rfl⟩ : ∃ post, ms₁ = [post] := List.length_eq_one_iff.mp (by
    rw [← List.length_map (·.canonicalName), hms₁]
    rfl)
  cases List.map_eq_nil_iff.mp hms₂
  exact ⟨orphanedPosts.schema, s', post, _, haccepted, hmodels, hs', hmodels', hrelations, rfl, rfl⟩

end Schemata.Graph
