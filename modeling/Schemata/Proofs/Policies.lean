import Schemata.Proofs.Acceptance
/-!
# The two policies for relations without columns

One run refuses what the other warns of: they agree on all graphs that the lenient run accepts
without a warning, and on the others the strict run stops where the lenient one first warns.
-/

namespace Schemata.Graph

/-- Where relations need columns, a relation is at fault if it is so anyway or gives a warning. -/
theorem relationFault?_error (g : Graph) (source : String) (d : RelationDeclaration) :
    g.relationFault? .error source d =
      match g.relationWarning? source d with
      | some _ => some (.unresolvedRelationFields source d.name d.referencedTable)
      | none => g.relationFault? .warn source d := by
  unfold relationFault? relationWarning?
  cases d.cardinality with
  | one =>
    cases g.findsColumns source d <;> rfl
  | many => rfl
  | other name => rfl

theorem relationFaults_error_of_no_warnings (g : Graph) (ds : List (String × RelationDeclaration))
    (h : (g.resolution ds).warnings = []) :
    g.relationFaults .error ds = g.relationFaults .warn ds := by
  refine List.filterMap_congr fun ⟨source, d⟩ hx => ?_
  simp only
  rw [relationFault?_error, warnings_resolution_eq_nil_iff.mp h source d hx]

theorem relationFaults_error_eq_nil_iff (g : Graph) (ds : List (String × RelationDeclaration)) :
    g.relationFaults .error ds = [] ↔
      g.relationFaults .warn ds = [] ∧ (g.resolution ds).warnings = [] := by
  constructor
  · intro h
    have hquiet : (g.resolution ds).warnings = [] := by
      rw [warnings_resolution_eq_nil_iff]
      simp only [relationFaults, List.filterMap_eq_nil_iff, Prod.forall] at h
      intro source d hx
      have hfault := h source d hx
      rw [relationFault?_error] at hfault
      split at hfault
      · cases hfault
      · assumption
    exact ⟨g.relationFaults_error_of_no_warnings ds hquiet ▸ h, hquiet⟩
  · rintro ⟨h, hquiet⟩
    rw [g.relationFaults_error_of_no_warnings ds hquiet, h]

/-- The first warning comes from a declaration at which the strict run stops, unless something
before it is at fault under either policy. -/
theorem head?_relationFaults_error_of_warning (g : Graph)
    (ds : List (String × RelationDeclaration)) (w : Warning) (ws : List Warning)
    (h : (g.resolution ds).warnings = w :: ws) (hwarn : g.relationFaults .warn ds = []) :
    ∃ before source d after, ds = before ++ (source, d) :: after ∧
      (g.resolution before).warnings = [] ∧ g.relationWarning? source d = some w ∧
      (g.relationFaults .error ds).head? =
        some (.unresolvedRelationFields source d.name d.referencedTable) := by
  simp only [resolution, List.filterMap_eq_cons_iff] at h
  obtain ⟨before, ⟨source, d⟩, after, rfl, hbefore, hw, -⟩ := h
  have hquiet : (g.resolution before).warnings = [] := List.filterMap_eq_nil_iff.mpr hbefore
  refine ⟨before, source, d, after, rfl, hquiet, hw, ?_⟩
  -- Before the first warning the two runs meet the same faults, and the lenient one meets none.
  rw [relationFaults_append, List.append_eq_nil_iff] at hwarn
  have hnone : g.relationFaults .error before = [] := by
    rw [relationFaults_error_of_no_warnings g before hquiet, hwarn.1]
  rw [relationFaults_append, hnone, List.nil_append, relationFaults_cons, relationFault?_error, hw]
  rfl

theorem faults_error_eq_nil_iff (g : Graph) :
    g.faults .error = [] ↔ g.faults .warn = [] ∧ g.schema.warnings = [] := by
  simp only [faults, List.append_eq_nil_iff, relationFaults_error_eq_nil_iff]
  exact and_right_comm

/-- The strict run accepts what the lenient one accepts without a warning, as the same schema; of
the rest it refuses the declaration that gives the first warning. -/
theorem normalize_error_iff_warn_without_warnings (g : Graph) :
    (∀ s, g.normalize .error = .ok s ↔ g.normalize .warn = .ok s ∧ s.warnings = []) ∧
      ∀ s w ws, g.normalize .warn = .ok s → s.warnings = w :: ws →
        ∃ before source d after, g.relationDeclarations = before ++ (source, d) :: after ∧
          (∀ x ∈ before, x.2.cardinality = .one →
            ∃ one, g.resolveOne .warn x.1 x.2 = .ok (one, [])) ∧
          d.cardinality = .one ∧ (∃ one, g.resolveOne .warn source d = .ok (one, [w])) ∧
          g.normalize .error =
            .error (.unresolvedRelationFields source d.name d.referencedTable) := by
  refine ⟨fun s => ?_, fun s w ws hs hw => ?_⟩
  · rw [normalize_eq_ok_iff, normalize_eq_ok_iff, faults_error_eq_nil_iff]
    constructor
    · rintro ⟨⟨hwarn, hquiet⟩, rfl⟩
      exact ⟨⟨hwarn, rfl⟩, hquiet⟩
    · rintro ⟨⟨hwarn, rfl⟩, hquiet⟩
      exact ⟨⟨hwarn, hquiet⟩, rfl⟩
  · obtain ⟨hwarn, rfl⟩ := normalize_eq_ok_iff.mp hs
    obtain ⟨before, source, d, after, hsplit, hquiet, hd, hfirst⟩ :=
      g.head?_relationFaults_error_of_warning g.relationDeclarations w ws hw
        (List.append_eq_nil_iff.mp hwarn).1
    have hone := cardinality_of_relationWarning? hd
    refine ⟨before, source, d, after, hsplit, fun x hx hx1 => ⟨g.toOne x.1 x.2, ?_⟩, hone,
      ⟨g.toOne source d, ?_⟩, ?_⟩
    · rw [resolveOne_warn g x.1 x.2 hx1, warnings_resolution_eq_nil_iff.mp hquiet x.1 x.2 hx]
      rfl
    · rw [resolveOne_warn g source d hone, hd]
      rfl
    · rw [normalize_eq, firstFaultOr_eq_error_iff, faults, List.head?_append, hfirst]
      rfl

/-- Of four relations a foreign key resolves the first, and nothing the last two. -/
def transfers : Graph where
  version := none
  entries := [
    .table ((TableDeclaration.ofName "Transfer").addForeignKey ⟨["from"], "Account", ["id"]⟩),
    .relations ⟨"transferRelations", "Transfer", [
      ⟨"from", .one, "", "Account", none⟩, ⟨"notes", .many, "", "Note", none⟩,
      ⟨"audit", .one, "", "Audit", none⟩, ⟨"owner", .one, "Ledger", "User", none⟩]⟩]

theorem normalize_error_iff_warn_without_warnings_transfers :
    ∃ s, transfers.normalize .warn = .ok s ∧ s.warnings.length = 2 ∧
      ∃ source d, (source, d) ∈ transfers.relationDeclarations ∧
        transfers.normalize .error =
          .error (.unresolvedRelationFields source d.name d.referencedTable) := by
  obtain ⟨before, source, d, after, hsplit, -, -, -, herror⟩ :=
    (normalize_error_iff_warn_without_warnings transfers).2 transfers.schema _ _ rfl rfl
  have hmem : (source, d) ∈ transfers.relationDeclarations := by
    rw [hsplit]
    exact List.mem_append_right before List.mem_cons_self
  exact ⟨transfers.schema, rfl, rfl, source, d, hmem, herror⟩

end Schemata.Graph
