import Schemata.Proofs.Policies
/-!
# Relations without columns

`warned_or_keyed_of_resolve`: a relation to one row that lacks columns on a side has been warned
of, unless its source table has a foreign key to the referenced table. A foreign key is taken as
it is, so one without columns leaves the relation without them, and nobody is told.
-/

namespace Schemata.Graph

/-- Resolution adds columns, and whether they may be null; all else stays as it is declared. -/
theorem toOne_eq_oneRelation (g : Graph) (source : String) (d : RelationDeclaration) :
    ∃ fields references isOptional,
      g.toOne source d = oneRelation source d fields references isOptional := by
  unfold toOne
  split
  · exact ⟨_, _, _, rfl⟩
  · split <;> exact ⟨_, _, _, rfl⟩

@[simp]
theorem sourceModel_toOne (g : Graph) (source : String) (d : RelationDeclaration) :
    (g.toOne source d).sourceModel = source := by
  obtain ⟨_, _, _, h⟩ := g.toOne_eq_oneRelation source d
  rw [h]
  rfl

@[simp]
theorem referenceModel_toOne (g : Graph) (source : String) (d : RelationDeclaration) :
    (g.toOne source d).referenceModel = d.referencedTable := by
  obtain ⟨_, _, _, h⟩ := g.toOne_eq_oneRelation source d
  rw [h]
  rfl

@[simp]
theorem declaredName_toOne (g : Graph) (source : String) (d : RelationDeclaration) :
    (g.toOne source d).declaredName = d.name := by
  obtain ⟨_, _, _, h⟩ := g.toOne_eq_oneRelation source d
  rw [h]
  rfl

/-- Stated columns are stated on both sides. -/
theorem columns_toOne_of_statesColumns (g : Graph) (source : String) {d : RelationDeclaration}
    (h : d.statesColumns = true) :
    (g.toOne source d).sourceFields ≠ [] ∧ (g.toOne source d).referenceFields ≠ [] := by
  have hstated := h
  rw [d.statesColumns_eq, Bool.not_eq_true', Bool.or_eq_false_iff, List.isEmpty_eq_false_iff,
    List.isEmpty_eq_false_iff] at hstated
  rw [toOne, if_pos h]
  exact hstated

theorem columns_toOne_of_key {g : Graph} {source : String} {d : RelationDeclaration}
    {key : ForeignKey} (hd : d.statesColumns = false) (hkey : g.keyFor? source d = some key) :
    (g.toOne source d).sourceFields = key.columns ∧
      (g.toOne source d).referenceFields = key.foreignColumns := by
  unfold toOne
  rw [hd, hkey]
  exact ⟨rfl, rfl⟩

theorem columns_toOne_of_no_key {g : Graph} {source : String} {d : RelationDeclaration}
    (hd : d.statesColumns = false) (hkey : g.keyFor? source d = none) :
    (g.toOne source d).sourceFields = [] ∧ (g.toOne source d).referenceFields = [] := by
  unfold toOne
  rw [hd, hkey]
  exact ⟨rfl, rfl⟩

theorem mem_warnings_resolved {g : Graph} {source : String} {d : RelationDeclaration} {w : Warning}
    (hd : (source, d) ∈ g.relationDeclarations) (hw : g.relationWarning? source d = some w) :
    w ∈ g.resolved.warnings :=
  List.mem_filterMap.mpr ⟨(source, d), hd, hw⟩

theorem resolve_eq_ok_iff {policy : UnresolvedPolicy} {g : Graph} {rs : ResolvedRelations} :
    g.resolve policy = .ok rs ↔
      g.relationFaults policy g.relationDeclarations = [] ∧ g.resolved = rs := by
  rw [resolve_eq, firstFaultOr_eq_ok_iff]

/-- A relation that lacks columns on a side is warned of, and then lacks them on both, unless the
first foreign key of its source to the referenced table lacks them. -/
theorem warned_or_keyed_of_resolve {policy : UnresolvedPolicy} {g : Graph} {rs : ResolvedRelations}
    (h : g.resolve policy = .ok rs) :
    (policy = .error → rs.warnings = []) ∧
      ∀ r, .one r ∈ rs.relations → r.sourceFields = [] ∨ r.referenceFields = [] →
        (((∀ t, g.tableNamed? r.sourceModel = some t → t.foreignKeyTo? r.referenceModel = none) ∧
          r.sourceFields = [] ∧ r.referenceFields = [] ∧
          .unresolvedRelationFields r.sourceModel r.declaredName r.referenceModel ∈ rs.warnings) ∨
        ∃ t key, g.tableNamed? r.sourceModel = some t ∧
          t.foreignKeyTo? r.referenceModel = some key ∧
          r.sourceFields = key.columns ∧ r.referenceFields = key.foreignColumns) := by
  obtain ⟨hfaults, rfl⟩ := resolve_eq_ok_iff.mp h
  constructor
  · rintro rfl
    exact ((g.relationFaults_error_eq_nil_iff g.relationDeclarations).mp hfaults).2
  · intro r hr hempty
    obtain ⟨source, d, hmem, ⟨hone, heq⟩ | ⟨-, heq⟩⟩ := (g.mem_resolved_iff (.one r)).mp hr
    case inr => cases heq
    cases heq
    -- Columns that the relation states itself are never missing.
    have hd : d.statesColumns = false := by
      rw [← Bool.not_eq_true]
      intro hstates
      obtain ⟨hfields, hreferences⟩ := g.columns_toOne_of_statesColumns source hstates
      exact hempty.elim hfields hreferences
    simp only [sourceModel_toOne, referenceModel_toOne, declaredName_toOne]
    cases hkey : g.keyFor? source d with
    | none =>
      have hwarning : g.relationWarning? source d =
          some (.unresolvedRelationFields source d.name d.referencedTable) := by
        rw [relationWarning?, findsColumns, hd, hkey]
        exact if_pos ⟨hone, rfl⟩
      obtain ⟨hfields, hreferences⟩ := columns_toOne_of_no_key hd hkey
      exact .inl ⟨Option.bind_eq_none_iff.mp hkey, hfields, hreferences,
        mem_warnings_resolved hmem hwarning⟩
    | some key =>
      obtain ⟨t, ht, hfirst⟩ := Option.bind_eq_some_iff.mp hkey
      exact .inr ⟨t, key, ht, hfirst, columns_toOne_of_key hd hkey⟩

/-- A relation without stated columns, whose table has a foreign key that names none either. -/
def keyedPosts : Graph where
  version := none
  entries := [
    .table ((TableDeclaration.ofName "Post").addForeignKey ⟨[], "User", []⟩),
    .relations ⟨"postRelations", "Post", [⟨"author", .one, "", "User", none⟩]⟩]

/-- The same, and a relation whose table has no foreign key at all. -/
def posts : Graph :=
  keyedPosts.push (.relations ⟨"noteRelations", "Note", [⟨"owner", .one, "", "User", none⟩]⟩)

theorem warned_or_keyed_of_resolve_posts :
    ∃ rs r, posts.resolve .warn = .ok rs ∧ .one r ∈ rs.relations ∧ r.sourceFields = [] ∧
      r.sourceModel = "Note" ∧
      .unresolvedRelationFields r.sourceModel r.declaredName r.referenceModel ∈ rs.warnings := by
  have h : posts.resolve .warn = .ok posts.resolved := rfl
  let r : OneRelation := ⟨"owner", "owner", none, "Note", "User", [], [], false, .out⟩
  have hr : .one r ∈ posts.resolved.relations := by decide
  refine ⟨posts.resolved, r, h, hr, rfl, rfl, ?_⟩
  rcases (warned_or_keyed_of_resolve h).2 r hr (.inl rfl) with ⟨-, -, -, hw⟩ | ⟨t, _, ht, -⟩
  · exact hw
  · cases ht

/-- A relation can lack columns though nobody was warned of it, even where relations need them. -/
theorem not_warned_of_resolve :
    ¬∀ (policy : UnresolvedPolicy) (g : Graph) (rs : ResolvedRelations),
      g.resolve policy = .ok rs → ∀ r, .one r ∈ rs.relations →
        r.sourceFields = [] ∨ r.referenceFields = [] →
          .unresolvedRelationFields r.sourceModel r.declaredName r.referenceModel ∈
            rs.warnings := by
  intro hall
  let r : OneRelation := ⟨"author", "author", none, "Post", "User", [], [], false, .out⟩
  have hr : .one r ∈ keyedPosts.resolved.relations := by decide
  have hw := hall .error keyedPosts keyedPosts.resolved rfl r hr (.inl rfl)
  cases hw

end Schemata.Graph
