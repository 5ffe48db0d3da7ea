import Schemata.Proofs.Columns
import Schemata.Proofs.Unresolved
import Schemata.Proofs.Views
/-!
# Which relations are optional

A relation whose declaration does not say whether it is optional is so if one of its columns may be
null. Resolution asks the first declaration of a column under its name in storage, also one that a
later declaration of its field name replaces; the model has the columns of the declarations that
stand. The two agree where both give the same answer, in particular where no field name is declared
twice.
-/

namespace Schemata

theorem TableDeclaration.anyNullable_eq_true_iff {t : TableDeclaration} {columns : List String} :
    t.anyNullable columns = true ↔
      ∃ f ∈ columns, ∃ c, t.columnNamed? f = some c ∧ c.isNullable = true := by
  simp only [anyNullable, List.any_eq_true, Option.any_eq_true]

/-- A model without faults has columns that may be null where the declarations that stand do. -/
theorem TableDeclaration.exists_nullable_model_iff {t : TableDeclaration}
    (hfaults : t.columnFaults = []) (resolved : ResolvedRelations) (fields : List String) :
    (∃ f ∈ fields, ∃ c, (t.model resolved).columnNamed? f = some c ∧ c.isNullable = true) ↔
      t.standing.anyNullable fields = true := by
  rw [anyNullable_eq_true_iff]
  refine exists_congr fun f => and_congr_right fun _ => ?_
  rw [Model.columnNamed?, model, find?_classifiedColumns hfaults]
  constructor
  · rintro ⟨column, hcolumn, hnullable⟩
    obtain ⟨c, hc, hclassify⟩ := Option.bind_eq_some_iff.mp hcolumn
    obtain ⟨column', hsome, hok⟩ := exists_classify_of_no_fault hfaults
      (mem_columns_of_mem_standing (List.mem_of_find?_eq_some hc))
    rw [hsome, Option.some.injEq] at hclassify
    subst hclassify
    exact ⟨c, hc, (ColumnDeclaration.names_of_classify hok).2.2 ▸ hnullable⟩
  · rintro ⟨c, hc, hnullable⟩
    obtain ⟨column, hsome, hok⟩ := exists_classify_of_no_fault hfaults
      (mem_columns_of_mem_standing (List.mem_of_find?_eq_some hc))
    refine ⟨column, Option.bind_eq_some_iff.mpr ⟨c, hc, hsome⟩, ?_⟩
    rw [(ColumnDeclaration.names_of_classify hok).2.2, hnullable]

namespace Graph

/-- Whether a relation comes from a declaration that does not say whether it is optional. -/
def LeavesOptional (policy : UnresolvedPolicy) (g : Graph) (r : OneRelation) : Prop :=
  ∃ source d noticed, (source, d) ∈ g.relationDeclarations ∧ d.cardinality = .one ∧
    d.settings.bind (·.optional) = none ∧ g.resolveOne policy source d = .ok (r, noticed)

theorem resolveOne_eq_ok {policy : UnresolvedPolicy} {g : Graph} {source : String}
    {d : RelationDeclaration} {r : OneRelation} {noticed : List Warning}
    (hone : d.cardinality = .one) (h : g.resolveOne policy source d = .ok (r, noticed)) :
    g.toOne source d = r := by
  rw [resolveOne_eq policy g source d hone, firstFaultOr_eq_ok_iff] at h
  exact congrArg Prod.fst h.2

/-- Where nothing is said, the first declarations of the columns decide, whoever states them. -/
theorem isOptional_toOne {g : Graph} {source : String} {d : RelationDeclaration}
    (hoptional : d.settings.bind (·.optional) = none)
    (hfields : (g.toOne source d).sourceFields ≠ []) :
    (g.toOne source d).isOptional = g.anyNullableAt source (g.toOne source d).sourceFields := by
  have hunsaid : (d.settings.getD .empty).optional = none := by
    cases hs : d.settings with
    | none => rfl
    | some s => rwa [hs, Option.bind_some] at hoptional
  unfold toOne at hfields ⊢
  simp only [hunsaid, Option.getD_none] at hfields ⊢
  split
  · rfl
  · next hstates =>
    rw [if_neg hstates] at hfields
    split
    · rfl
    · next hkey =>
      rw [hkey] at hfields
      exact absurd rfl hfields

/-- A relation that leaves open whether it is optional agrees with the columns of its model exactly
where the first declarations of its columns and those that stand do, which they always do if no
field name is declared twice. -/
theorem optional_agrees_iff {policy : UnresolvedPolicy} {g : Graph} {s : Schema}
    (h : g.normalize policy = .ok s) {m : Model} (hm : m ∈ s.models) {r : OneRelation}
    (hr : .one r ∈ m.relations) (hout : r.direction = .out)
    (hleaves : g.LeavesOptional policy r) (hfields : r.sourceFields ≠ []) :
    ∃ t, g.tableNamed? m.canonicalName = some t ∧
      ((r.isOptional = true ↔
          ∃ f ∈ r.sourceFields, ∃ c, m.columnNamed? f = some c ∧ c.isNullable = true) ↔
        t.anyNullable r.sourceFields = t.standing.anyNullable r.sourceFields) ∧
      ((t.columns.map (·.fieldName)).Nodup →
        (r.isOptional = true ↔
          ∃ f ∈ r.sourceFields, ∃ c, m.columnNamed? f = some c ∧ c.isNullable = true)) := by
  obtain ⟨source, d, noticed, -, hone, hoptional, hresolve⟩ := hleaves
  obtain rfl := resolveOne_eq_ok hone hresolve
  obtain ⟨t, ht, rfl, hfaults, hnamed⟩ := exists_table_of_mem_models h hm
  -- The relation starts from the table, so that is where resolution has looked.
  have hsource : source = t.name := by
    obtain ⟨v, -, ⟨heq, hname⟩ | ⟨heq, -⟩⟩ := ResolvedRelations.mem_attachedTo_iff.mp hr
    · have hmodel := congrArg Relation.sourceModel heq
      rw [Relation.sourceModel_withDirection, hname] at hmodel
      exact (g.sourceModel_toOne source d).symm.trans hmodel
    · have hdirection : (Relation.one (g.toOne source d)).direction = .inbound := by
        rw [heq, Relation.direction_withDirection]
      exact absurd (hout.symm.trans hdirection) (by decide)
  subst hsource
  have hasked : (g.toOne t.name d).isOptional = t.anyNullable (g.toOne t.name d).sourceFields := by
    rw [isOptional_toOne hoptional hfields, anyNullableAt]
    exact congrArg (Option.any _) hnamed
  have hagrees : ((g.toOne t.name d).isOptional = true ↔
      ∃ f ∈ (g.toOne t.name d).sourceFields,
        ∃ c, (t.model g.resolved).columnNamed? f = some c ∧ c.isNullable = true) ↔
      t.anyNullable (g.toOne t.name d).sourceFields =
        t.standing.anyNullable (g.toOne t.name d).sourceFields := by
    rw [TableDeclaration.exists_nullable_model_iff hfaults, hasked]
    exact Bool.eq_iff_iff.symm
  refine ⟨t, hnamed, hagrees, fun hnodup => hagrees.mpr ?_⟩
  rw [TableDeclaration.standing_eq_self hnodup]

/-- A key column that is declared twice, the second time as one that may be null or not. -/
def drafts (required : Bool) : Graph where
  version := none
  entries := [
    .table ((TableDeclaration.ofName "User").addColumn (.ofName "id" .text "text")),
    .table ((TableDeclaration.ofName "Draft")
      |>.addColumn (ColumnDeclaration.ofName "authorId" .text "text").required
      |>.addColumn { ColumnDeclaration.ofName "authorId" .text "text" with notNull := required }),
    .relations ⟨"draftRelations", "Draft", [
      ⟨"author", .one, "", "User", some ⟨["authorId"], ["id"], none, none⟩⟩]⟩]

/-- The relation of the drafts, which is not optional. -/
def draftAuthor : OneRelation :=
  ⟨"author", "author", none, "Draft", "User", ["authorId"], ["id"], false, .out⟩

theorem leavesOptional_draftAuthor (required : Bool) :
    (drafts required).LeavesOptional .error draftAuthor := by
  refine ⟨"Draft", ⟨"author", .one, "", "User", some ⟨["authorId"], ["id"], none, none⟩⟩, [], ?_⟩
  cases required <;> decide

theorem optional_agrees_iff_drafts :
    ∃ s m, (drafts true).normalize .error = .ok s ∧ m ∈ s.models ∧ .one draftAuthor ∈ m.relations ∧
      (draftAuthor.isOptional = true ↔
        ∃ f ∈ draftAuthor.sourceFields, ∃ c, m.columnNamed? f = some c ∧ c.isNullable = true) := by
  have h : (drafts true).normalize .error = .ok (drafts true).schema := rfl
  have hm : (drafts true).schema.models[1] ∈ (drafts true).schema.models :=
    List.getElem_mem (by decide)
  have hr : .one draftAuthor ∈ (drafts true).schema.models[1].relations := by decide
  obtain ⟨t, ht, hagrees, -⟩ :=
    optional_agrees_iff h hm hr rfl (leavesOptional_draftAuthor true) (by decide)
  refine ⟨_, _, h, hm, hr, hagrees.mpr ?_⟩
  cases ht
  rfl

/-- A relation can be required though its column may be null. -/
theorem not_optional_agrees :
    ¬∀ (policy : UnresolvedPolicy) (g : Graph) (s : Schema), g.normalize policy = .ok s →
      ∀ m ∈ s.models, ∀ r, .one r ∈ m.relations → r.direction = .out →
        g.LeavesOptional policy r → r.sourceFields ≠ [] →
          (r.isOptional = true ↔
            ∃ f ∈ r.sourceFields, ∃ c, m.columnNamed? f = some c ∧ c.isNullable = true) := by
  intro hall
  have hm : (drafts false).schema.models[1] ∈ (drafts false).schema.models :=
    List.getElem_mem (by decide)
  have hr : .one draftAuthor ∈ (drafts false).schema.models[1].relations := by decide
  have hagrees := hall .error (drafts false) (drafts false).schema rfl _ hm draftAuthor hr rfl
    (leavesOptional_draftAuthor false) (by decide)
  have hnullable : ∃ f ∈ draftAuthor.sourceFields,
      ∃ c, (drafts false).schema.models[1].columnNamed? f = some c ∧ c.isNullable = true :=
    ⟨"authorId", by decide, Column.ofType "authorId" "authorId" .text, by decide, rfl⟩
  exact absurd (hagrees.mpr hnullable) (by decide)

end Graph
end Schemata
