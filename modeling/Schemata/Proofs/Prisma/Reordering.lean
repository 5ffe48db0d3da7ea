import Mathlib.Data.List.Find
import Mathlib.Data.List.Nodup
import Schemata.Proofs.Views
import Schemata.Prisma.Document
/-!
# The order of tables and enums

A graph whose tables and enums stand in another order describes the same schema but for the order
of its models and enums, and a document sorts both by name. What makes the order of no account is
that names are distinct: a table is found under its name wherever it stands, and a sorted list of
distinct names is the only one of its elements.
-/

namespace Schemata

/-- Of things with distinct names, the one of a name does not depend on their order. -/
theorem find?_name_eq_of_perm {α : Type} {key : α → String} {as bs : List α} (hperm : as.Perm bs)
    (hnodup : (as.map key).Nodup) (name : String) :
    as.find? (fun a => key a == name) = bs.find? fun a => key a == name := by
  refine List.find?_eq_find?_of_perm hperm ?_
  rintro a ⟨ha, hname⟩ b ⟨hb, hother⟩
  have hsame : key a = key b := (eq_of_beq hname).trans (eq_of_beq hother).symm
  exact List.inj_on_of_nodup_map hnodup ha hb hsame

/-- Things with distinct names have one order by name. -/
theorem mergeSort_name_eq_of_perm {α : Type} {key : α → String} {as bs : List α}
    (hperm : as.Perm bs) (hnodup : (as.map key).Nodup) :
    as.mergeSort (fun a b => key a ≤ key b) = bs.mergeSort fun a b => key a ≤ key b := by
  have hsorted (cs : List α) :
      (cs.mergeSort fun a b => key a ≤ key b).Pairwise fun a b => decide (key a ≤ key b) := by
    refine @List.pairwise_mergeSort α (fun a b => decide (key a ≤ key b)) ?_ ?_ cs
    · intro a b c hab hbc
      exact decide_eq_true (String.le_trans (of_decide_eq_true hab) (of_decide_eq_true hbc))
    · intro a b
      rw [Bool.or_eq_true, decide_eq_true_iff, decide_eq_true_iff]
      exact String.le_total (key a) (key b)
  -- Two things that stand in both orders have the same name, so they are the same thing.
  refine List.Perm.eq_of_pairwise (fun a b ha hb hab hba => ?_) (hsorted as) (hsorted bs)
    ((List.mergeSort_perm as _).trans (hperm.trans (List.mergeSort_perm bs _).symm))
  have hsame := String.le_antisymm (of_decide_eq_true hab) (of_decide_eq_true hba)
  have hb' : b ∈ as := hperm.symm.subset (List.mem_mergeSort.mp hb)
  exact List.inj_on_of_nodup_map hnodup (List.mem_mergeSort.mp ha) hb' hsame

namespace Prisma

theorem document_eq_of_perm (preludeText : String) {s s' : Schema}
    (hmodels : s.models.Perm s'.models) (henums : s.enums.Perm s'.enums)
    (hmodelNames : (s.models.map (·.canonicalName)).Nodup)
    (henumNames : (s.enums.map (·.canonicalName)).Nodup) :
    document preludeText s = document preludeText s' := by
  rw [document, document, mergeSort_name_eq_of_perm hmodels hmodelNames,
    mergeSort_name_eq_of_perm henums henumNames]

end Prisma

namespace Graph

/-- The same declarations, with the tables and the enums in any order. -/
structure Reordered (g g' : Graph) : Prop where
  entries : g'.entries.Perm g.entries
  relationSets : g'.relationSets = g.relationSets

variable {g g' : Graph}

theorem Reordered.tables (h : g.Reordered g') : g'.tables.Perm g.tables :=
  h.entries.filterMap _

theorem Reordered.enums (h : g.Reordered g') : g'.enums.Perm g.enums :=
  h.entries.filterMap _

theorem Reordered.relationDeclarations (h : g.Reordered g') :
    g'.relationDeclarations = g.relationDeclarations := by
  rw [Graph.relationDeclarations, h.relationSets, Graph.relationDeclarations]

theorem Reordered.tableNamed? (h : g.Reordered g') (hnames : (g.tables.map (·.name)).Nodup)
    (name : String) : g'.tableNamed? name = g.tableNamed? name :=
  (find?_name_eq_of_perm h.tables.symm hnames name).symm

theorem Reordered.resolved (h : g.Reordered g') (hnames : (g.tables.map (·.name)).Nodup) :
    g'.resolved = g.resolved := by
  rw [Graph.resolved, h.relationDeclarations, resolution_congr (h.tableNamed? hnames),
    Graph.resolved]

theorem Reordered.wellFormed {policy : UnresolvedPolicy} (h : g.Reordered g')
    (hg : g.WellFormed policy) : g'.WellFormed policy where
  cardinality := by
    rw [h.relationSets]
    exact hg.cardinality
  columnsKnown := by
    simp only [h.relationSets, h.tableNamed? hg.distinctNames]
    exact hg.columnsKnown
  distinctNames := (h.tables.map _).nodup_iff.mpr hg.distinctNames
  classifiable := fun t ht => hg.classifiable t (h.tables.subset ht)
  indexesAccepted := fun t ht => hg.indexesAccepted t (h.tables.subset ht)
  enumsDeclared := fun t ht c hc henum => by
    obtain ⟨e, he, hname⟩ := hg.enumsDeclared t (h.tables.subset ht) c hc henum
    exact ⟨e, h.enums.symm.subset he, hname⟩

theorem Reordered.document_schema (h : g.Reordered g') (hnames : (g.tables.map (·.name)).Nodup)
    (henums : (g.enums.map (·.name)).Nodup) (preludeText : String) :
    Prisma.document preludeText g'.schema = Prisma.document preludeText g.schema := by
  have hmodels : g.schema.models.Perm g'.schema.models := by
    simp only [schema, h.resolved hnames]
    exact h.tables.symm.map _
  have hmodelNames : (g.schema.models.map (·.canonicalName)).Nodup := by
    rw [map_canonicalName_schema]
    exact hnames
  have henumNames : (g.schema.enums.map (·.canonicalName)).Nodup := by
    rw [schema, enumTypes, List.map_map]
    exact henums
  exact (Prisma.document_eq_of_perm preludeText hmodels (h.enums.symm.map _) hmodelNames
    henumNames).symm

/-- Normalization accepts a graph in whatever order its tables and enums stand, resolves its
relations alike, and leads to one document. -/
theorem prisma_eq_of_reordered {policy : UnresolvedPolicy} {g g' : Graph} {s : Schema}
    (hentries : g'.entries.Perm g.entries) (hsets : g'.relationSets = g.relationSets)
    (henums : (g.enums.map (·.name)).Nodup) (h : g.normalize policy = .ok s) :
    ∃ s', g'.normalize policy = .ok s' ∧ s'.relations = s.relations ∧
      s'.warnings = s.warnings ∧
      ∀ preludeText, (Prisma.document preludeText s').render =
        (Prisma.document preludeText s).render := by
  have hreordered : g.Reordered g' := ⟨hentries, hsets⟩
  obtain ⟨hfaults, rfl⟩ := normalize_eq_ok_iff.mp h
  have hwellFormed := faults_eq_nil_iff.mp hfaults
  have hresolved := hreordered.resolved hwellFormed.distinctNames
  refine ⟨g'.schema, normalize_eq_ok_iff.mpr ⟨?_, rfl⟩, ?_, ?_, fun preludeText => ?_⟩
  · exact faults_eq_nil_iff.mpr (hreordered.wellFormed hwellFormed)
  · exact congrArg ResolvedRelations.relations hresolved
  · exact congrArg ResolvedRelations.warnings hresolved
  · rw [hreordered.document_schema hwellFormed.distinctNames henums]

/-- Two tables, two enums, and relations that a foreign key resolves and that nothing does. -/
def library : Graph where
  version := none
  entries := [
    .table ((TableDeclaration.ofName "Book").addColumn
      { ColumnDeclaration.ofName "genre" .enum "genre" with enumName := some "Genre" }
      |>.addForeignKey ⟨["genre"], "Author", ["id"]⟩),
    .enum ⟨"genreEnum", "Genre", ["novel"]⟩,
    .relations ⟨"bookRelations", "Book", [
      ⟨"author", .one, "", "Author", none⟩, ⟨"shelf", .one, "", "Shelf", none⟩]⟩,
    .enum ⟨"countryEnum", "Country", []⟩,
    .table ((TableDeclaration.ofName "Author").addColumn (.ofName "id" .text "text"))]

theorem prisma_eq_of_reordered_library :
    ∃ s s', library.normalize .warn = .ok s ∧
      (⟨none, library.entries.reverse⟩ : Graph).normalize .warn = .ok s' ∧
      s.models ≠ s'.models ∧ s'.relations = s.relations ∧
      (Prisma.document Prisma.defaultPrelude s').render =
        (Prisma.document Prisma.defaultPrelude s).render := by
  have h : library.normalize .warn = .ok library.schema := rfl
  let reversed : Graph := ⟨none, library.entries.reverse⟩
  have hentries : reversed.entries.Perm library.entries := library.entries.reverse_perm
  have hsets : reversed.relationSets = library.relationSets := rfl
  have henums : (library.enums.map (·.name)).Nodup := by decide
  obtain ⟨s', h', hrelations, -, hdocument⟩ := prisma_eq_of_reordered hentries hsets henums h
  have hmodels : library.schema.models ≠ s'.models := by
    obtain ⟨-, rfl⟩ := normalize_eq_ok_iff.mp h'
    decide
  exact ⟨library.schema, s', h, h', hmodels, hrelations, hdocument _⟩

end Graph
end Schemata
