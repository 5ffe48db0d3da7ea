import Mathlib.Data.List.Induction
import Schemata.Proofs.Acceptance
import Schemata.Proofs.Unresolved
/-!
# Where resolved relations come from

Each relation declaration has its relation among the resolved ones, and each of these comes from a
declaration. They stand in the order of the first declarations that they come from, those that lead
to one row before the others.
-/

namespace Schemata

section FirstYields

variable {α β : Type} [BEq β] [LawfulBEq β]

/-- The place of the first of some things that yields a value. -/
def firstYield (f : α → Option β) (as : List α) (b : β) : Nat := as.findIdx fun a => f a == some b

theorem firstYield_lt_length {f : α → Option β} {as : List α} {b : β} (h : b ∈ as.filterMap f) :
    firstYield f as b < as.length := by
  obtain ⟨a, ha, hb⟩ := List.mem_filterMap.mp h
  exact List.findIdx_lt_length_of_exists ⟨a, ha, beq_iff_eq.mpr hb⟩

/-- What has been yielded is yielded at the same place when something comes behind. -/
theorem firstYield_concat_of_mem {f : α → Option β} {as : List α} (a : α) {b : β}
    (h : b ∈ as.filterMap f) : firstYield f (as ++ [a]) b = firstYield f as b := by
  rw [firstYield, List.findIdx_append]
  exact if_pos (firstYield_lt_length h)

theorem length_le_firstYield_concat {f : α → Option β} {as : List α} (a : α) {b : β}
    (h : b ∉ as.filterMap f) : as.length ≤ firstYield f (as ++ [a]) b := by
  have hnone : ¬as.findIdx (fun a => f a == some b) < as.length := by
    intro hlt
    have hfound := List.findIdx_getElem (w := hlt)
    exact h (List.mem_filterMap.mpr ⟨_, List.getElem_mem hlt, eq_of_beq hfound⟩)
  rw [firstYield, List.findIdx_append, if_neg hnone]
  exact Nat.le_add_left _ _

/-- Values of one kind are first yielded where they are if all kinds count. -/
theorem firstYield_filter (f : α → Option β) (p : β → Bool) (as : List α) {b : β} (h : p b = true) :
    firstYield (fun a => (f a).filter p) as b = firstYield f as b := by
  have hsame (a : α) : ((f a).filter p == some b) = (f a == some b) := by
    rw [Bool.eq_iff_iff, beq_iff_eq, beq_iff_eq, Option.filter_eq_some_iff]
    exact and_iff_left h
  simp only [firstYield, hsame]

/-- Without repetitions, values stand in the order in which they are first yielded. -/
theorem pairwise_firstYield_eraseDups (f : α → Option β) (as : List α) :
    (as.filterMap f).eraseDups.Pairwise fun b c => firstYield f as b < firstYield f as c := by
  induction as using List.reverseRecOn with
  | nil => exact .nil
  | append_singleton as a ih =>
    -- What came before keeps its place.
    have hold : (as.filterMap f).eraseDups.Pairwise fun b c =>
        firstYield f (as ++ [a]) b < firstYield f (as ++ [a]) c := by
      refine ih.imp_of_mem fun {b c} hb hc hlt => ?_
      rwa [firstYield_concat_of_mem a (List.mem_eraseDups.mp hb),
        firstYield_concat_of_mem a (List.mem_eraseDups.mp hc)]
    rw [List.filterMap_append, List.filterMap_cons, List.filterMap_nil]
    cases hc : f a with
    | none => rwa [List.append_nil]
    | some c =>
      rw [eraseDups_concat]
      by_cases hmem : c ∈ as.filterMap f
      · rwa [if_pos hmem]
      · rw [if_neg hmem, List.pairwise_append]
        refine ⟨hold, List.pairwise_singleton _ _, fun b hb c' hc' => ?_⟩
        obtain rfl := List.mem_singleton.mp hc'
        have hb := List.mem_eraseDups.mp hb
        rw [firstYield_concat_of_mem a hb]
        exact Nat.lt_of_lt_of_le (firstYield_lt_length hb) (length_le_firstYield_concat a hmem)

end FirstYields

namespace Graph

/-- The relation that a declaration comes to, if it is not refused. -/
def yield? (policy : UnresolvedPolicy) (g : Graph) (source : String) (d : RelationDeclaration) :
    Option Relation :=
  match d.cardinality with
  | .one => (g.resolveOne policy source d).toOption.map fun (r, _) => .one r
  | .many => some (.many ⟨d.name, source, d.referencedTable, .out⟩)
  | .other _ => none

/-- The columns of the two sides of a relation to one row that starts from a table. -/
inductive ColumnsFrom (g : Graph) (source : String) (d : RelationDeclaration) :
    List String → List String → Prop where
  /-- The relation states columns on both sides itself, whatever foreign keys there are. -/
  | stated (s : RelationSettings) (hs : d.settings = some s) (hfields : s.fields ≠ [])
      (hreferences : s.references ≠ []) : ColumnsFrom g source d s.fields s.references
  /-- The first table of the name has foreign keys to the referenced table, this one first. -/
  | keyed (hunstated : ¬∃ s, d.settings = some s ∧ s.fields ≠ [] ∧ s.references ≠ [])
      (t : TableDeclaration) (ht : g.tables.find? (·.name = source) = some t) (k : ForeignKey)
      (hk : t.foreignKeys.find? (·.foreignTable = d.referencedTable) = some k) :
      ColumnsFrom g source d k.columns k.foreignColumns
  | unknown (hunstated : ¬∃ s, d.settings = some s ∧ s.fields ≠ [] ∧ s.references ≠ [])
      (hunkeyed : ∀ t, g.tables.find? (·.name = source) = some t →
        ∀ k ∈ t.foreignKeys, k.foreignTable ≠ d.referencedTable) : ColumnsFrom g source d [] []

/-- What a relation takes from a declaration in a set. -/
inductive Describes (g : Graph) (set : RelationSet) (d : RelationDeclaration) : Relation → Prop where
  | one (r : OneRelation) (hone : d.cardinality = .one) (hname : r.declaredName = d.name)
      (hsource : r.sourceModel = if d.sourceTable = "" then set.table else d.sourceTable)
      (hreference : r.referenceModel = d.referencedTable)
      (hcolumns : g.ColumnsFrom r.sourceModel d r.sourceFields r.referenceFields) :
      Describes g set d (.one r)
  | many (r : ManyRelation) (hmany : d.cardinality = .many) (hname : r.declaredName = d.name)
      (hsource : r.sourceModel = if d.sourceTable = "" then set.table else d.sourceTable)
      (hreference : r.referenceModel = d.referencedTable) : Describes g set d (.many r)

/-- Relations are those of the declarations of a graph: none is lost, none comes twice, and their
order is that of the declarations. -/
structure Traces (policy : UnresolvedPolicy) (g : Graph) (rs : ResolvedRelations) : Prop where
  complete : ∀ set ∈ g.relationSets, ∀ d ∈ set.relations,
    ∃ r ∈ rs.relations, g.yield? policy (d.source set) d = some r
  sound : ∀ r ∈ rs.relations, ∃ set ∈ g.relationSets, ∃ d ∈ set.relations,
    g.yield? policy (d.source set) d = some r
  described : ∀ set ∈ g.relationSets, ∀ d ∈ set.relations, ∀ r,
    g.yield? policy (d.source set) d = some r → g.Describes set d r
  nodup : rs.relations.Nodup
  onesFirst : rs.relations.Pairwise fun r r' => r'.isOne = true → r.isOne = true
  ordered : rs.relations.Pairwise fun r r' => r.isOne = r'.isOne →
    firstYield (fun (source, d) => g.yield? policy source d) g.relationDeclarations r <
      firstYield (fun (source, d) => g.yield? policy source d) g.relationDeclarations r'

theorem yield?_eq {policy : UnresolvedPolicy} {g : Graph} {source : String}
    {d : RelationDeclaration} (h : g.relationFault? policy source d = none) :
    g.yield? policy source d =
      if d.cardinality = .one then some (.one (g.toOne source d))
      else some (.many (d.toMany source)) := by
  unfold yield?
  cases hc : d.cardinality with
  | one => simp only [resolveOne_eq policy g source d hc, h]; rfl
  | many => rfl
  | other name => rw [relationFault?, hc] at h; cases h

theorem relationFault?_eq_none {policy : UnresolvedPolicy} {g : Graph}
    (h : g.relationFaults policy g.relationDeclarations = []) {source : String}
    {d : RelationDeclaration} (hd : (source, d) ∈ g.relationDeclarations) :
    g.relationFault? policy source d = none :=
  List.filterMap_eq_nil_iff.mp h (source, d) hd

/-- The relations of a graph without faults: of each kind those that its declarations yield. -/
theorem relations_resolved_eq {policy : UnresolvedPolicy} {g : Graph}
    (h : g.relationFaults policy g.relationDeclarations = []) :
    g.resolved.relations =
      (g.relationDeclarations.filterMap fun (source, d) =>
        (g.yield? policy source d).filter (·.isOne)).eraseDups ++
      (g.relationDeclarations.filterMap fun (source, d) =>
        (g.yield? policy source d).filter (!·.isOne)).eraseDups := by
  have hones : ((g.resolution g.relationDeclarations).ones.map Relation.one) =
      g.relationDeclarations.filterMap fun (source, d) =>
        (g.yield? policy source d).filter (·.isOne) := by
    rw [resolution, List.map_filterMap]
    refine List.filterMap_congr fun x hd => ?_
    obtain ⟨source, d⟩ := x
    simp only [yield?_eq (relationFault?_eq_none h hd)]
    split <;> rfl
  have hmanys : ((g.resolution g.relationDeclarations).manys.map Relation.many) =
      g.relationDeclarations.filterMap fun (source, d) =>
        (g.yield? policy source d).filter (!·.isOne) := by
    rw [resolution, List.map_filterMap]
    refine List.filterMap_congr fun x hd => ?_
    obtain ⟨source, d⟩ := x
    have hkind := (relationFault?_eq_none_iff.mp (relationFault?_eq_none h hd)).1
    simp only [yield?_eq (relationFault?_eq_none h hd)]
    rcases hkind with hc | hc <;> simp only [hc, if_true, reduceCtorEq, if_false] <;> rfl
  have hapart : (((g.resolution g.relationDeclarations).manys.map Relation.many).removeAll
      ((g.resolution g.relationDeclarations).ones.map Relation.one)) =
      (g.resolution g.relationDeclarations).manys.map Relation.many := by
    simp [List.removeAll]
  rw [resolved, List.eraseDups_append, hapart, hones, hmanys]

/-- The relation that a declaration yields takes its columns from one place. -/
theorem columnsFrom_toOne (g : Graph) (source : String) (d : RelationDeclaration) :
    g.ColumnsFrom source d (g.toOne source d).sourceFields (g.toOne source d).referenceFields := by
  have hstates : d.statesColumns = true ↔
      ∃ s, d.settings = some s ∧ s.fields ≠ [] ∧ s.references ≠ [] := by
    simp only [RelationDeclaration.statesColumns, Option.any_eq_true, Bool.and_eq_true,
      Bool.not_eq_true', List.isEmpty_eq_false_iff]
  cases hd : d.statesColumns with
  | true =>
    obtain ⟨s, hs, hfields, hreferences⟩ := hstates.mp hd
    rw [toOne, if_pos hd, hs]
    exact .stated s hs hfields hreferences
  | false =>
    have hunstated := mt hstates.mpr (Bool.not_eq_true _ ▸ hd)
    cases hkey : g.keyFor? source d with
    | some k =>
      obtain ⟨t, ht, hk⟩ := Option.bind_eq_some_iff.mp hkey
      obtain ⟨hfields, hreferences⟩ := columns_toOne_of_key hd hkey
      rw [hfields, hreferences]
      exact .keyed hunstated t ht k hk
    | none =>
      obtain ⟨hfields, hreferences⟩ := columns_toOne_of_no_key hd hkey
      rw [hfields, hreferences]
      refine .unknown hunstated fun t ht k hk => ?_
      have hnone := List.find?_eq_none.mp (Option.bind_eq_none_iff.mp hkey t ht) k hk
      exact fun heq => hnone (beq_iff_eq.mpr heq)

theorem describes_of_yield? {policy : UnresolvedPolicy} {g : Graph} {set : RelationSet}
    {d : RelationDeclaration} (hfault : g.relationFault? policy (d.source set) d = none)
    {r : Relation} (h : g.yield? policy (d.source set) d = some r) : g.Describes set d r := by
  have hsource : d.source set = if d.sourceTable = "" then set.table else d.sourceTable := by
    simp only [RelationDeclaration.source, String.isEmpty_iff]
  rw [yield?_eq hfault] at h
  rcases (relationFault?_eq_none_iff.mp hfault).1 with hc | hc
  · rw [if_pos hc, Option.some.injEq] at h
    subst h
    refine .one _ hc (declaredName_toOne ..) ?_ (referenceModel_toOne ..) ?_
    · rw [sourceModel_toOne, hsource]
    · rw [sourceModel_toOne]
      exact g.columnsFrom_toOne (d.source set) d
  · rw [if_neg (by rw [hc]; decide), Option.some.injEq] at h
    subst h
    exact .many _ hc rfl hsource rfl

theorem mem_resolved_iff_yield? {policy : UnresolvedPolicy} {g : Graph}
    (h : g.relationFaults policy g.relationDeclarations = []) (r : Relation) :
    r ∈ g.resolved.relations ↔
      ∃ source d, (source, d) ∈ g.relationDeclarations ∧ g.yield? policy source d = some r := by
  simp only [relations_resolved_eq h, List.mem_append, List.mem_eraseDups, List.mem_filterMap,
    Prod.exists, Option.filter_eq_some_iff]
  constructor
  · rintro (⟨source, d, hd, hr, -⟩ | ⟨source, d, hd, hr, -⟩) <;> exact ⟨source, d, hd, hr⟩
  · rintro ⟨source, d, hd, hr⟩
    cases hone : r.isOne
    · exact .inr ⟨source, d, hd, hr, rfl⟩
    · exact .inl ⟨source, d, hd, hr, rfl⟩

theorem isOne_of_mem_filtered {ds : List (String × RelationDeclaration)}
    {f : String × RelationDeclaration → Option Relation} {p : Relation → Bool} {r : Relation}
    (h : r ∈ (ds.filterMap fun x => (f x).filter p).eraseDups) : p r = true := by
  obtain ⟨x, -, hx⟩ := List.mem_filterMap.mp (List.mem_eraseDups.mp h)
  exact (Option.filter_eq_some_iff.mp hx).2

/-- Resolution loses no relation and takes none twice, it keeps the order of the declarations, and
the columns of a relation to one row come from one place. -/
theorem traces_of_resolve {policy : UnresolvedPolicy} {g : Graph} {rs : ResolvedRelations}
    (h : g.resolve policy = .ok rs) : g.Traces policy rs := by
  obtain ⟨hfaults, rfl⟩ := resolve_eq_ok_iff.mp h
  have hdeclared : ∀ set ∈ g.relationSets, ∀ d ∈ set.relations,
      (d.source set, d) ∈ g.relationDeclarations := fun set hset d hd =>
    mem_relationDeclarations_iff.mpr ⟨set, hset, hd, rfl⟩
  let f : String × RelationDeclaration → Option Relation := fun (source, d) =>
    g.yield? policy source d
  have hsplit := relations_resolved_eq hfaults
  constructor
  case complete =>
    intro set hset d hd
    have hmem := hdeclared set hset d hd
    obtain ⟨r, hr⟩ : ∃ r, g.yield? policy (d.source set) d = some r := by
      rw [yield?_eq (relationFault?_eq_none hfaults hmem)]
      split <;> exact ⟨_, rfl⟩
    exact ⟨r, (mem_resolved_iff_yield? hfaults r).mpr ⟨_, d, hmem, hr⟩, hr⟩
  case sound =>
    intro r hr
    obtain ⟨source, d, hmem, hyield⟩ := (mem_resolved_iff_yield? hfaults r).mp hr
    obtain ⟨set, hset, hd, rfl⟩ := mem_relationDeclarations_iff.mp hmem
    exact ⟨set, hset, d, hd, hyield⟩
  case described =>
    intro set hset d hd r
    exact describes_of_yield? (relationFault?_eq_none hfaults (hdeclared set hset d hd))
  case nodup => exact g.nodup_resolved
  case onesFirst =>
    rw [hsplit, List.pairwise_append]
    refine ⟨?_, ?_, fun r hr _ _ _ => isOne_of_mem_filtered hr⟩
    · exact List.pairwise_of_forall_mem_list fun r hr _ _ _ => isOne_of_mem_filtered hr
    · refine List.pairwise_of_forall_mem_list fun _ _ r' hr' hone => ?_
      have hmany := isOne_of_mem_filtered hr'
      rw [hone] at hmany
      cases hmany
  case ordered =>
    rw [hsplit, List.pairwise_append]
    refine ⟨?_, ?_, fun r hr r' hr' hkind => ?_⟩
    · refine (pairwise_firstYield_eraseDups _ _).imp_of_mem fun {r r'} hr hr' hlt _ => ?_
      rwa [firstYield_filter f _ _ (isOne_of_mem_filtered hr),
        firstYield_filter f _ _ (isOne_of_mem_filtered hr')] at hlt
    · refine (pairwise_firstYield_eraseDups _ _).imp_of_mem fun {r r'} hr hr' hlt _ => ?_
      rwa [firstYield_filter f _ _ (isOne_of_mem_filtered hr),
        firstYield_filter f _ _ (isOne_of_mem_filtered hr')] at hlt
    · -- One of them leads to one row and the other one to many.
      have hone := isOne_of_mem_filtered hr
      have hmany := isOne_of_mem_filtered hr'
      rw [← hkind, hone] at hmany
      cases hmany

/-- A relation that states columns beside a foreign key, one that states them on one side only, one
of a table that is not declared, one to many rows between them, and a repetition. -/
def transfersTwice : Graph where
  version := none
  entries := [
    .table ((TableDeclaration.ofName "Transfer")
      |>.addForeignKey ⟨["currencyId"], "Currency", ["id"]⟩
      |>.addForeignKey ⟨["fromId"], "Account", ["id"]⟩
      |>.addForeignKey ⟨["toId"], "Account", ["id"]⟩),
    .relations ⟨"transferRelations", "Transfer", [
      ⟨"to", .one, "", "Account", some ⟨["toId"], ["id"], none, none⟩⟩,
      ⟨"notes", .many, "", "Note", none⟩,
      ⟨"from", .one, "Transfer", "Account", some ⟨["toId"], [], none, none⟩⟩]⟩,
    .relations ⟨"noteRelations", "Note", [
      ⟨"author", .one, "", "User", none⟩,
      ⟨"to", .one, "Transfer", "Account", some ⟨["toId"], ["id"], none, none⟩⟩]⟩]

theorem traces_of_resolve_transfersTwice :
    ∃ rs, transfersTwice.resolve .warn = .ok rs ∧ transfersTwice.Traces .warn rs ∧
      rs.relations.map (·.declaredName) = ["to", "from", "author", "notes"] := by
  have h : transfersTwice.resolve .warn = .ok transfersTwice.resolved := rfl
  exact ⟨transfersTwice.resolved, h, traces_of_resolve h, by decide⟩

end Graph
end Schemata
