import Mathlib.Data.List.Basic
import Schemata.Normalize.Relations
import Schemata.Proofs.FirstFault
/-!
# What resolution comes to

`resolve_eq` splits the resolution of a graph into the faults of its relation declarations, which
depend on the policy, and the relations and warnings, which do not: a policy only decides whether
a relation without columns is one of the faults.
-/

namespace Schemata

theorem nodup_eraseDups {α : Type} [BEq α] [LawfulBEq α] (as : List α) : as.eraseDups.Nodup := by
  match as with
  | [] => exact List.nodup_nil
  | a :: as =>
    rw [List.eraseDups_cons, List.nodup_cons]
    have hgone : a ∉ as.filter fun b => !b == a := by
      simp only [List.mem_filter, BEq.rfl, Bool.not_true, Bool.false_eq_true, and_false,
        not_false_eq_true]
    exact ⟨fun h => hgone (List.mem_eraseDups.mp h), nodup_eraseDups _⟩
termination_by as.length
decreasing_by exact Nat.lt_succ_of_le (List.length_filter_le _ _)

theorem eraseDups_concat {α : Type} [BEq α] [LawfulBEq α] (as : List α) (a : α)
    [Decidable (a ∈ as)] :
    (as ++ [a]).eraseDups = if a ∈ as then as.eraseDups else as.eraseDups ++ [a] := by
  rw [List.eraseDups_append, List.removeAll, List.filter_cons, List.filter_nil]
  by_cases h : a ∈ as <;> simp [h, List.eraseDups_cons]

namespace RelationDeclaration

/-- Whether a relation states its columns on both sides. -/
def statesColumns (d : RelationDeclaration) : Bool :=
  d.settings.any fun s => !s.fields.isEmpty && !s.references.isEmpty

theorem statesColumns_eq (d : RelationDeclaration) :
    d.statesColumns =
      !((d.settings.getD .empty).fields.isEmpty || (d.settings.getD .empty).references.isEmpty) := by
  unfold statesColumns
  cases d.settings with
  | none => rfl
  | some s => simp only [Option.any_some, Option.getD_some, Bool.not_or]

def toMany (source : String) (d : RelationDeclaration) : ManyRelation :=
  ⟨d.name, source, d.referencedTable, .out⟩

end RelationDeclaration

namespace Graph

/-- The foreign key that gives a relation its columns where it states none. -/
def keyFor? (g : Graph) (source : String) (d : RelationDeclaration) : Option ForeignKey :=
  (g.tableNamed? source).bind (·.foreignKeyTo? d.referencedTable)

/-- Whether the columns of a relation to one row are known, by itself or by a foreign key. -/
def findsColumns (g : Graph) (source : String) (d : RelationDeclaration) : Bool :=
  d.statesColumns || (g.keyFor? source d).isSome

/-- Whether one of the columns may be null on the table that a relation starts from. -/
def anyNullableAt (g : Graph) (source : String) (columns : List String) : Bool :=
  (g.tableNamed? source).any (·.anyNullable columns)

/-- The relation to one row that a declaration describes, without columns if none are known. -/
def toOne (g : Graph) (source : String) (d : RelationDeclaration) : OneRelation :=
  let settings := d.settings.getD .empty
  let isOptional := settings.optional.getD (g.anyNullableAt source settings.fields)
  if d.statesColumns then
    oneRelation source d settings.fields settings.references isOptional
  else
    match g.keyFor? source d with
    | some key =>
      oneRelation source d key.columns key.foreignColumns (g.anyNullableAt source key.columns)
    | none => oneRelation source d [] [] isOptional

/-- What is wrong with a relation, under a policy. -/
def relationFault? (policy : UnresolvedPolicy) (g : Graph) (source : String)
    (d : RelationDeclaration) : Option NormalizeError :=
  match d.cardinality with
  | .one =>
    if policy = .error ∧ !g.findsColumns source d then
      some (.unresolvedRelationFields source d.name d.referencedTable)
    else none
  | .many => none
  | .other name => some (.malformedRelation source d.name name)

/-- The warning that a relation to one row gives if its columns are not known. -/
def relationWarning? (g : Graph) (source : String) (d : RelationDeclaration) : Option Warning :=
  if d.cardinality = .one ∧ !g.findsColumns source d then
    some (.unresolvedRelationFields source d.name d.referencedTable)
  else none

theorem resolveOne_eq (policy : UnresolvedPolicy) (g : Graph) (source : String)
    (d : RelationDeclaration) (hone : d.cardinality = .one) :
    g.resolveOne policy source d =
      firstFaultOr (g.relationFault? policy source d).toList
        (g.toOne source d, (g.relationWarning? source d).toList) := by
  simp only [relationFault?, relationWarning?, hone, true_and]
  -- The policy is asked only where the columns are neither stated nor those of a foreign key.
  simp only [resolveOne, findsColumns, toOne, keyFor?, anyNullableAt, d.statesColumns_eq]
  cases (d.settings.getD .empty).fields.isEmpty || (d.settings.getD .empty).references.isEmpty
  case false => cases policy <;> rfl
  case true =>
    cases (g.tableNamed? source).bind (·.foreignKeyTo? d.referencedTable) <;> cases policy <;> rfl

theorem cardinality_of_relationWarning? {g : Graph} {source : String} {d : RelationDeclaration}
    {w : Warning} (h : g.relationWarning? source d = some w) : d.cardinality = .one := by
  unfold relationWarning? at h
  split at h
  · next hd => exact hd.1
  · cases h

/-- Where relations need no columns, every relation to one row resolves. -/
theorem resolveOne_warn (g : Graph) (source : String) (d : RelationDeclaration)
    (hone : d.cardinality = .one) :
    g.resolveOne .warn source d =
      .ok (g.toOne source d, (g.relationWarning? source d).toList) := by
  have hfault : g.relationFault? .warn source d = none := by
    rw [relationFault?, hone]
    exact if_neg fun h => by cases h.1
  rw [resolveOne_eq .warn g source d hone, hfault]
  rfl

/-- What relation declarations come to if none of them is at fault. -/
def resolution (g : Graph) (ds : List (String × RelationDeclaration)) : Resolution where
  ones := ds.filterMap fun (source, d) =>
    if d.cardinality = .one then some (g.toOne source d) else none
  manys := ds.filterMap fun (source, d) =>
    if d.cardinality = .many then some (d.toMany source) else none
  warnings := ds.filterMap fun (source, d) => g.relationWarning? source d

/-- The faults of relation declarations in their order. -/
def relationFaults (policy : UnresolvedPolicy) (g : Graph)
    (ds : List (String × RelationDeclaration)) : List NormalizeError :=
  ds.filterMap fun (source, d) => g.relationFault? policy source d

theorem relationFaults_cons (policy : UnresolvedPolicy) (g : Graph) (source : String)
    (d : RelationDeclaration) (ds : List (String × RelationDeclaration)) :
    g.relationFaults policy ((source, d) :: ds) =
      (g.relationFault? policy source d).toList ++ g.relationFaults policy ds := by
  simp only [relationFaults, List.filterMap_eq_flatMap_toList, List.flatMap_cons]

theorem relationFaults_append (policy : UnresolvedPolicy) (g : Graph)
    (ds es : List (String × RelationDeclaration)) :
    g.relationFaults policy (ds ++ es) =
      g.relationFaults policy ds ++ g.relationFaults policy es :=
  List.filterMap_append

theorem warnings_resolution_eq_nil_iff {g : Graph} {ds : List (String × RelationDeclaration)} :
    (g.resolution ds).warnings = [] ↔
      ∀ source d, (source, d) ∈ ds → g.relationWarning? source d = none := by
  simp only [resolution, List.filterMap_eq_nil_iff, Prod.forall]

theorem resolution_append (g : Graph) (ds es : List (String × RelationDeclaration)) :
    g.resolution (ds ++ es) =
      ⟨(g.resolution ds).ones ++ (g.resolution es).ones,
        (g.resolution ds).manys ++ (g.resolution es).manys,
        (g.resolution ds).warnings ++ (g.resolution es).warnings⟩ := by
  simp only [resolution, List.filterMap_append]

theorem resolution_cons_one (g : Graph) (source : String) (d : RelationDeclaration)
    (ds : List (String × RelationDeclaration)) (hone : d.cardinality = .one) :
    g.resolution ((source, d) :: ds) =
      ⟨g.toOne source d :: (g.resolution ds).ones, (g.resolution ds).manys,
        (g.relationWarning? source d).toList ++ (g.resolution ds).warnings⟩ := by
  simp only [resolution, List.filterMap_eq_flatMap_toList, List.flatMap_cons, hone, if_true,
    reduceCtorEq, if_false]
  rfl

theorem resolution_cons_many (g : Graph) (source : String) (d : RelationDeclaration)
    (ds : List (String × RelationDeclaration)) (hmany : d.cardinality = .many) :
    g.resolution ((source, d) :: ds) =
      ⟨(g.resolution ds).ones, d.toMany source :: (g.resolution ds).manys,
        (g.resolution ds).warnings⟩ := by
  simp only [resolution, List.filterMap_eq_flatMap_toList, List.flatMap_cons, hmany, if_true,
    reduceCtorEq, if_false, relationWarning?, false_and]
  rfl

section Congruence

variable {g g' : Graph} {source : String}

/-- A relation to one row depends on no other table than that which it starts from. -/
theorem toOne_congr (hnamed : g'.tableNamed? source = g.tableNamed? source)
    (d : RelationDeclaration) : g'.toOne source d = g.toOne source d := by
  simp only [toOne, keyFor?, anyNullableAt, hnamed]

theorem findsColumns_congr (hnamed : g'.tableNamed? source = g.tableNamed? source)
    (d : RelationDeclaration) : g'.findsColumns source d = g.findsColumns source d := by
  simp only [findsColumns, keyFor?, hnamed]

theorem relationWarning?_congr (hnamed : g'.tableNamed? source = g.tableNamed? source)
    (d : RelationDeclaration) : g'.relationWarning? source d = g.relationWarning? source d := by
  rw [relationWarning?, findsColumns_congr hnamed, relationWarning?]

theorem relationFault?_congr (hnamed : g'.tableNamed? source = g.tableNamed? source)
    (policy : UnresolvedPolicy) (d : RelationDeclaration) :
    g'.relationFault? policy source d = g.relationFault? policy source d := by
  rw [relationFault?, findsColumns_congr hnamed, relationFault?]

variable {ds : List (String × RelationDeclaration)}

/-- Resolution looks up the tables that relations to one row start from, and no others. -/
theorem resolution_congr_of_sources
    (hnamed : ∀ source d, (source, d) ∈ ds → d.cardinality = .one →
      g'.tableNamed? source = g.tableNamed? source) :
    g'.resolution ds = g.resolution ds := by
  simp only [resolution, Resolution.mk.injEq, true_and]
  constructor
  · apply List.filterMap_congr
    rintro ⟨source, d⟩ hd
    by_cases hone : d.cardinality = .one
    · simp only [hone, if_true, toOne_congr (hnamed source d hd hone)]
    · simp only [hone, if_false]
  · apply List.filterMap_congr
    rintro ⟨source, d⟩ hd
    by_cases hone : d.cardinality = .one
    · exact relationWarning?_congr (hnamed source d hd hone) d
    · simp only [relationWarning?, hone, false_and, if_false]

theorem relationFaults_congr_of_sources (policy : UnresolvedPolicy)
    (hnamed : ∀ source d, (source, d) ∈ ds → d.cardinality = .one →
      g'.tableNamed? source = g.tableNamed? source) :
    g'.relationFaults policy ds = g.relationFaults policy ds := by
  apply List.filterMap_congr
  rintro ⟨source, d⟩ hd
  by_cases hone : d.cardinality = .one
  · exact relationFault?_congr (hnamed source d hd hone) policy d
  · -- What leads to many rows, or to none, has its fault whatever the tables are.
    simp only [relationFault?]
    cases hc : d.cardinality with
    | one => exact absurd hc hone
    | many => rfl
    | other name => rfl

/-- Resolution looks at the tables of a graph by their names only. -/
theorem resolution_congr (hnamed : ∀ name, g'.tableNamed? name = g.tableNamed? name)
    (ds : List (String × RelationDeclaration)) : g'.resolution ds = g.resolution ds :=
  resolution_congr_of_sources fun source _ _ _ => hnamed source

end Congruence

theorem resolveEach_eq (policy : UnresolvedPolicy) (g : Graph)
    (ds : List (String × RelationDeclaration)) :
    g.resolveEach policy ds = firstFaultOr (g.relationFaults policy ds) (g.resolution ds) := by
  induction ds with
  | nil => rfl
  | cons x ds ih =>
    obtain ⟨source, d⟩ := x
    rw [resolveEach, relationFaults_cons]
    -- Each declaration puts its own fault in front of those of the rest, and its relation in front
    -- of theirs; where it is at fault, what the rest comes to is of no account.
    cases hc : d.cardinality with
    | one =>
      simp only
      rw [resolveOne_eq policy g source d hc, ih, resolution_cons_one g source d ds hc]
      exact firstFaultOr_bind _ _ _ _ _ (firstFaultOr_map _ _ _)
    | many =>
      have hnone : g.relationFault? policy source d = none := by rw [relationFault?, hc]
      rw [hnone, ih, resolution_cons_many g source d ds hc]
      exact firstFaultOr_map _ _ _
    | other name =>
      have hfault : g.relationFault? policy source d =
          some (.malformedRelation source d.name name) := by
        rw [relationFault?, hc]
      rw [hfault]
      rfl

/-- The relations of a graph whose relation declarations are not at fault. -/
def resolved (g : Graph) : ResolvedRelations :=
  let r := g.resolution g.relationDeclarations
  ⟨(r.ones.map Relation.one ++ r.manys.map Relation.many).eraseDups, r.warnings⟩

theorem resolve_eq (policy : UnresolvedPolicy) (g : Graph) :
    g.resolve policy =
      firstFaultOr (g.relationFaults policy g.relationDeclarations) g.resolved := by
  rw [resolve, resolveEach_eq]
  exact firstFaultOr_map _ _ _

theorem nodup_resolved (g : Graph) : g.resolved.relations.Nodup := nodup_eraseDups _

theorem mem_resolved_iff (g : Graph) (r : Relation) :
    r ∈ g.resolved.relations ↔
      ∃ source d, (source, d) ∈ g.relationDeclarations ∧
        (d.cardinality = .one ∧ r = .one (g.toOne source d) ∨
          d.cardinality = .many ∧ r = .many (d.toMany source)) := by
  simp only [resolved, resolution, List.mem_eraseDups, List.mem_append, List.mem_map,
    List.mem_filterMap, Prod.exists, Option.ite_none_right_eq_some, Option.some.injEq]
  constructor
  · rintro (⟨_, ⟨source, d, hmem, hc, rfl⟩, rfl⟩ | ⟨_, ⟨source, d, hmem, hc, rfl⟩, rfl⟩)
    · exact ⟨source, d, hmem, .inl ⟨hc, rfl⟩⟩
    · exact ⟨source, d, hmem, .inr ⟨hc, rfl⟩⟩
  · rintro ⟨source, d, hmem, ⟨hc, rfl⟩ | ⟨hc, rfl⟩⟩
    · exact .inl ⟨_, ⟨source, d, hmem, hc, rfl⟩, rfl⟩
    · exact .inr ⟨_, ⟨source, d, hmem, hc, rfl⟩, rfl⟩

theorem toOne_direction (g : Graph) (source : String) (d : RelationDeclaration) :
    (g.toOne source d).direction = .out := by
  unfold toOne
  split
  · rfl
  · split <;> rfl

/-- Resolved relations are seen from their sources. -/
theorem direction_of_mem_resolved (g : Graph) {r : Relation} (h : r ∈ g.resolved.relations) :
    r.direction = .out := by
  obtain ⟨source, d, -, ⟨-, rfl⟩ | ⟨-, rfl⟩⟩ := (g.mem_resolved_iff r).mp h
  · exact g.toOne_direction source d
  · rfl

end Graph
end Schemata
