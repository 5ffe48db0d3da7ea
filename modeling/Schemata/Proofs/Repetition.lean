import Schemata.Proofs.Acceptance
import Schemata.Proofs.Checksum
import Schemata.Proofs.Unresolved
/-!
# Relation sets that are repeated

A graph that repeats one of its relation sets resolves to the same relations, since these are kept
once. Warnings are not: each relation of the set without columns is warned of again, and only where
there is none of these is the schema the same.
-/

namespace Schemata

section Repeated

variable {α : Type} [BEq α] [LawfulBEq α]

theorem eraseDups_append_of_subset {as bs : List α} (h : bs ⊆ as) :
    (as ++ bs).eraseDups = as.eraseDups := by
  have hnone : bs.removeAll as = [] := by
    refine List.filter_eq_nil_iff.mpr fun b hb => ?_
    rw [List.elem_eq_mem, decide_eq_true (h hb)]
    decide
  rw [List.eraseDups_append, hnone, List.eraseDups_nil, List.append_nil]

theorem eraseDups_append_congr {as as' : List α} (h : as.eraseDups = as'.eraseDups) (bs : List α) :
    (as ++ bs).eraseDups = (as' ++ bs).eraseDups := by
  have hmem (a : α) : a ∈ as ↔ a ∈ as' := by
    rw [← List.mem_eraseDups, h, List.mem_eraseDups]
  have hrest : bs.removeAll as = bs.removeAll as' := by
    simp only [List.removeAll, List.elem_eq_mem, hmem]
  rw [List.eraseDups_append, List.eraseDups_append, h, hrest]

/-- What is repeated in either of two parts does not count. -/
theorem eraseDups_append_repeated {as bs as' bs' : List α} (ha : as' ⊆ as) (hb : bs' ⊆ bs) :
    (as ++ as' ++ (bs ++ bs')).eraseDups = (as ++ bs).eraseDups := by
  rw [← List.append_assoc, eraseDups_append_of_subset (List.subset_append_of_subset_right _ hb)]
  exact eraseDups_append_congr (eraseDups_append_of_subset ha) bs

end Repeated

namespace Graph

theorem tables_push_relations (g : Graph) (set : RelationSet) :
    (g.push (.relations set)).tables = g.tables := by
  simp [tables, push]

theorem enums_push_relations (g : Graph) (set : RelationSet) :
    (g.push (.relations set)).enums = g.enums := by
  simp [enums, push]

/-- The declarations of a relation set, with the tables they start from. -/
def declarationsOf (set : RelationSet) : List (String × RelationDeclaration) :=
  set.relations.map fun d => (d.source set, d)

theorem relationDeclarations_push_relations (g : Graph) (set : RelationSet) :
    (g.push (.relations set)).relationDeclarations =
      g.relationDeclarations ++ declarationsOf set := by
  simp [relationDeclarations, relationSets, push, declarationsOf]

/-- The warnings of the relations of a set. -/
def warningsOf (g : Graph) (set : RelationSet) : List Warning :=
  (g.resolution (declarationsOf set)).warnings

/-- The columns of all relations to one row in a set are stated on both sides, or are those of a
foreign key of the first table of the source's name. -/
def KnowsColumns (g : Graph) (set : RelationSet) : Prop :=
  ∀ d ∈ set.relations, d.cardinality = .one →
    (∃ s, d.settings = some s ∧ s.fields ≠ [] ∧ s.references ≠ []) ∨
      ∃ t, g.tableNamed? (d.source set) = some t ∧
        ∃ key ∈ t.foreignKeys, key.foreignTable = d.referencedTable

theorem warningsOf_eq_nil_iff {g : Graph} {set : RelationSet} :
    g.warningsOf set = [] ↔ g.KnowsColumns set := by
  simp only [warningsOf, warnings_resolution_eq_nil_iff, declarationsOf, List.mem_map,
    Prod.mk.injEq, KnowsColumns, ← findsColumns_eq_true_iff, relationWarning?]
  constructor
  · intro h d hd hone
    have hnone := h (d.source set) d ⟨d, hd, rfl, rfl⟩
    by_contra hfinds
    rw [if_pos ⟨hone, by simpa using hfinds⟩] at hnone
    cases hnone
  · rintro h _ d ⟨_, hd, rfl, rfl⟩
    refine if_neg fun hwarned => ?_
    have hfinds := h _ hd hwarned.1
    simp [hfinds] at hwarned

theorem subset_of_mem_relationSets {g : Graph} {set : RelationSet} (h : set ∈ g.relationSets) :
    declarationsOf set ⊆ g.relationDeclarations := by
  rintro ⟨source, d⟩ hd
  obtain ⟨d', hd', heq⟩ := List.mem_map.mp hd
  cases heq
  exact mem_relationDeclarations_iff.mpr ⟨set, h, hd', rfl⟩

/-- Where relations need no columns, only the declarations themselves are at fault. -/
theorem relationFaults_warn_congr (g g' : Graph) (ds : List (String × RelationDeclaration)) :
    g'.relationFaults .warn ds = g.relationFaults .warn ds := by
  refine List.filterMap_congr fun ⟨source, d⟩ _ => ?_
  simp only [relationFault?, reduceCtorEq, false_and, if_false]

theorem relationFaults_push_of_mem {g : Graph} {set : RelationSet} (hset : set ∈ g.relationSets)
    (h : g.relationFaults .warn g.relationDeclarations = []) :
    (g.push (.relations set)).relationFaults .warn
      (g.push (.relations set)).relationDeclarations = [] := by
  rw [relationFaults_warn_congr g, relationDeclarations_push_relations, relationFaults_append, h,
    List.nil_append]
  refine List.filterMap_eq_nil_iff.mpr fun x hx => ?_
  exact List.filterMap_eq_nil_iff.mp h x (subset_of_mem_relationSets hset hx)

theorem resolved_push_of_mem {g : Graph} {set : RelationSet} (hset : set ∈ g.relationSets) :
    (g.push (.relations set)).resolved =
      ⟨g.resolved.relations, g.resolved.warnings ++ g.warningsOf set⟩ := by
  have hnamed (name : String) : (g.push (.relations set)).tableNamed? name = g.tableNamed? name := by
    rw [tableNamed?, tables_push_relations, tableNamed?]
  have hsubset := subset_of_mem_relationSets hset
  have hones : (g.resolution (declarationsOf set)).ones ⊆
      (g.resolution g.relationDeclarations).ones := List.filterMap_subset _ hsubset
  have hmanys : (g.resolution (declarationsOf set)).manys ⊆
      (g.resolution g.relationDeclarations).manys := List.filterMap_subset _ hsubset
  rw [resolved, resolution_congr hnamed, relationDeclarations_push_relations, resolution_append]
  simp only [List.map_append]
  rw [eraseDups_append_repeated (List.map_subset _ hones) (List.map_subset _ hmanys)]
  rfl

theorem schema_push_of_mem {g : Graph} {set : RelationSet} (hset : set ∈ g.relationSets) :
    (g.push (.relations set)).schema.SameContent
      { g.schema with warnings := g.schema.warnings ++ g.warningsOf set } := by
  have hresolved := resolved_push_of_mem hset
  constructor
  case models => rw [schema, hresolved, tables_push_relations]; rfl
  case enums => rw [schema, enumTypes, enums_push_relations]; rfl
  case relations => rw [schema, hresolved]; rfl
  case warnings => rw [schema, hresolved]; rfl

/-- A set of relations that is declared again adds its warnings, and nothing else. So it changes
nothing exactly where the columns of all its relations to one row are known. -/
theorem warnings_of_repeated {g : Graph} {rs : ResolvedRelations} (h : g.resolve .warn = .ok rs)
    {set : RelationSet} (hset : set ∈ g.relationSets) :
    (g.push (.relations set)).resolve .warn =
        .ok ⟨rs.relations, rs.warnings ++ g.warningsOf set⟩ ∧
      (rs.warnings ++ g.warningsOf set = rs.warnings ↔ g.KnowsColumns set) ∧
      ∀ s, g.normalize .warn = .ok s →
        ∃ s', (g.push (.relations set)).normalize .warn = .ok s' ∧ s'.models = s.models ∧
          s'.enums = s.enums ∧ s'.relations = s.relations ∧
          s'.warnings = s.warnings ++ g.warningsOf set ∧
          (s'.canonicalText = s.canonicalText ↔ g.KnowsColumns set) ∧
          (g.KnowsColumns set → s'.checksum = s.checksum) := by
  obtain ⟨hfaults, rfl⟩ := resolve_eq_ok_iff.mp h
  have hpushed := relationFaults_push_of_mem hset hfaults
  refine ⟨resolve_eq_ok_iff.mpr ⟨hpushed, resolved_push_of_mem hset⟩, ?_, fun s hs => ?_⟩
  · rw [List.append_right_eq_self, warningsOf_eq_nil_iff]
  · obtain ⟨hnone, rfl⟩ := normalize_eq_ok_iff.mp hs
    have hcontent := schema_push_of_mem hset
    have htext : (g.push (.relations set)).schema.canonicalText = g.schema.canonicalText ↔
        g.KnowsColumns set := by
      rw [Schema.canonicalText_eq_iff.mpr hcontent, Schema.canonicalText_eq_iff,
        ← warningsOf_eq_nil_iff]
      constructor
      · intro hsame
        exact List.append_right_eq_self.mp hsame.warnings
      · intro hnothing
        exact ⟨rfl, rfl, rfl, List.append_right_eq_self.mpr hnothing⟩
    have hfaults' : (g.push (.relations set)).faults .warn = [] := by
      rw [faults, hpushed, enumTypes, enums_push_relations, tables_push_relations]
      exact (List.append_eq_nil_iff.mp hnone).2
    refine ⟨_, normalize_eq_ok_iff.mpr ⟨hfaults', rfl⟩, hcontent.models, hcontent.enums,
      hcontent.relations, hcontent.warnings, htext, fun hknown => ?_⟩
    rw [Schema.checksum, htext.mpr hknown, Schema.checksum]

def postAuthors : RelationSet := ⟨"postRelations", "Post", [⟨"author", .one, "", "User", none⟩]⟩

/-- Posts with the relation to their authors and with some foreign keys. -/
def authoredPosts (keys : List ForeignKey) : Graph where
  version := none
  entries := [.table { TableDeclaration.ofName "Post" with foreignKeys := keys },
    .relations postAuthors]

theorem warnings_of_repeated_authoredPosts :
    ∃ s s', (authoredPosts [⟨["authorId"], "User", ["id"]⟩]).normalize .warn = .ok s ∧
      ((authoredPosts [⟨["authorId"], "User", ["id"]⟩]).push (.relations postAuthors)).normalize
        .warn = .ok s' ∧ s'.models = s.models ∧ s'.checksum = s.checksum := by
  let g : Graph := authoredPosts [⟨["authorId"], "User", ["id"]⟩]
  have hset : postAuthors ∈ g.relationSets := by decide
  have hresolve : g.resolve .warn = .ok g.resolved := rfl
  obtain ⟨-, -, hnormalize⟩ := warnings_of_repeated hresolve hset
  obtain ⟨s', hs', hmodels, -, -, -, -, hchecksum⟩ := hnormalize g.schema rfl
  have hknown : g.KnowsColumns postAuthors := by
    refine warningsOf_eq_nil_iff.mp ?_
    decide
  exact ⟨g.schema, s', rfl, hs', hmodels, hchecksum hknown⟩

/-- A set of relations that is declared again can be warned of again. -/
theorem not_resolve_of_repeated :
    ¬∀ (g : Graph) (rs : ResolvedRelations), g.resolve .warn = .ok rs → ∀ set ∈ g.relationSets,
      (g.push (.relations set)).resolve .warn = .ok rs := by
  intro hall
  have hagain := hall (authoredPosts []) (authoredPosts []).resolved rfl postAuthors (by decide)
  revert hagain
  decide

end Graph
end Schemata
