import Schemata.Normalize.Schema
import Schemata.Proofs.FirstFault
/-!
# What the assembly of models comes to

`toModels_eq` splits it into the faults of the tables in their order, and one model a table.
-/

namespace Schemata

namespace Model

theorem map_fieldName_insertInto (c : Column) (ds : List Column) :
    (insertInto c ds).map (·.fieldName) =
      if c.fieldName ∈ ds.map (·.fieldName) then ds.map (·.fieldName)
      else ds.map (·.fieldName) ++ [c.fieldName] := by
  induction ds with
  | nil => rfl
  | cons d ds ih =>
    rw [insertInto, List.map_cons]
    by_cases hname : d.fieldName = c.fieldName
    · rw [if_pos hname, if_pos (hname ▸ List.mem_cons_self), List.map_cons, hname]
    · rw [if_neg hname, List.map_cons, ih]
      by_cases hold : c.fieldName ∈ ds.map (·.fieldName)
      · rw [if_pos hold, if_pos (List.mem_cons_of_mem _ hold)]
      · have hnew : c.fieldName ∉ d.fieldName :: ds.map (·.fieldName) :=
          List.not_mem_cons_of_ne_of_not_mem (Ne.symm hname) hold
        rw [if_neg hold, if_neg hnew, List.cons_append]

/-- Field names stay distinct when a column is added. -/
theorem nodup_insertInto (c : Column) {ds : List Column} (h : (ds.map (·.fieldName)).Nodup) :
    ((insertInto c ds).map (·.fieldName)).Nodup := by
  rw [map_fieldName_insertInto]
  split
  · exact h
  · next hnew =>
    have hone : [c.fieldName].Nodup := List.nodup_cons.mpr ⟨List.not_mem_nil, List.nodup_nil⟩
    refine List.nodup_append.mpr ⟨h, hone, fun name hname other hother heq => hnew ?_⟩
    rwa [← List.mem_singleton.mp hother, ← heq]

theorem nodup_foldl_insertInto (cs : List Column) {ds : List Column}
    (h : (ds.map (·.fieldName)).Nodup) :
    ((cs.foldl (fun ds c => insertInto c ds) ds).map (·.fieldName)).Nodup := by
  induction cs generalizing ds with
  | nil => exact h
  | cons c cs ih => exact ih (nodup_insertInto c h)

end Model

namespace TableDeclaration

/-- The columns of a table whose columns all can be classified. -/
def classifiedColumns (t : TableDeclaration) : List Column :=
  (t.columns.filterMap fun c => (c.classify t.name).toOption).foldl
    (fun ds c => Model.insertInto c ds) []

theorem nodup_classifiedColumns (t : TableDeclaration) :
    (t.classifiedColumns.map (·.fieldName)).Nodup :=
  Model.nodup_foldl_insertInto _ List.nodup_nil

/-- The indexes of a table whose indexes are all accepted. -/
def acceptedIndexes (t : TableDeclaration) : List Index :=
  (t.indexes.getD []).filterMap fun d => (d.toIndex t.name).toOption

/-- The model of a table that is not at fault. -/
def model (resolved : ResolvedRelations) (t : TableDeclaration) : Model :=
  ⟨t.name, t.binding, t.classifiedColumns, resolved.attachedTo t.name, t.acceptedIndexes⟩

def columnFaults (t : TableDeclaration) : List NormalizeError :=
  t.columns.filterMap fun c => fault? (c.classify t.name)

def indexFaults (t : TableDeclaration) : List NormalizeError :=
  (t.indexes.getD []).filterMap fun d => fault? (d.toIndex t.name)

/-- What is wrong with the enum of a column, if it is not among these. -/
def linkFault? (enums : List EnumType) (t : TableDeclaration) (c : ColumnDeclaration) :
    Option NormalizeError :=
  match c.enumName with
  | some name =>
    if c.storage = .enum ∧ name ∉ enums.map (·.canonicalName) then
      some
        (.unclassifiableColumn t.name c.name c.storage.name c.sqlType s!"unknown enum '{name}'")
    else none
  | none => none

def linkFaults (enums : List EnumType) (t : TableDeclaration) : List NormalizeError :=
  t.columns.filterMap (t.linkFault? enums)

/-- What is wrong with a table, its name aside. -/
def faults (enums : List EnumType) (t : TableDeclaration) : List NormalizeError :=
  t.columnFaults ++ t.indexFaults ++ t.linkFaults enums

theorem toColumns_eq (t : TableDeclaration) :
    t.toColumns = firstFaultOr t.columnFaults t.classifiedColumns := by
  rw [toColumns, mapM_eq_firstFaultOr, firstFaultOr_map]
  rfl

theorem toModel_eq (resolved : ResolvedRelations) (t : TableDeclaration) :
    t.toModel resolved = firstFaultOr (t.columnFaults ++ t.indexFaults) (t.model resolved) := by
  rw [toModel, toColumns_eq, toIndexes, mapM_eq_firstFaultOr]
  exact firstFaultOr_bind _ _ _ _ _ (firstFaultOr_map _ _ _)

theorem any_canonicalName (enums : List EnumType) (name : String) :
    (enums.any fun e => e.canonicalName == name) = decide (name ∈ enums.map (·.canonicalName)) := by
  rw [Bool.eq_iff_iff, List.any_eq_true, decide_eq_true_iff, List.mem_map]
  simp only [beq_iff_eq]

theorem danglingEnum?_of_name {enums : List EnumType} {c : ColumnDeclaration} {name : String}
    (hname : c.enumName = some name) :
    danglingEnum? enums c =
      if c.storage = .enum ∧ name ∉ enums.map (·.canonicalName) then some name else none := by
  unfold danglingEnum?
  by_cases hstorage : c.storage = .enum
  · rw [if_pos hstorage, hname, Option.filter_some, any_canonicalName]
    by_cases hmem : name ∈ enums.map (·.canonicalName)
    · simp only [hmem, decide_true, not_true_eq_false, and_false, if_false, Bool.not_true,
        Bool.false_eq_true]
    · simp only [hstorage, hmem, decide_false, not_false_eq_true, and_self, if_true, Bool.not_false]
  · rw [if_neg hstorage, if_neg (fun h => hstorage h.1)]

theorem danglingEnum?_of_no_name {enums : List EnumType} {c : ColumnDeclaration}
    (hname : c.enumName = none) : danglingEnum? enums c = none := by
  rw [danglingEnum?, hname]
  split <;> rfl

theorem checkEnums_eq (enums : List EnumType) (t : TableDeclaration) :
    t.checkEnums enums = firstFaultOr (t.linkFaults enums) () := by
  rw [checkEnums, forM_eq_firstFaultOr, linkFaults]
  congr 2
  funext c
  unfold linkFault?
  cases hname : c.enumName with
  | none => rw [danglingEnum?_of_no_name hname, fault?_ok]
  | some name =>
    rw [danglingEnum?_of_name hname]
    by_cases h : c.storage = .enum ∧ name ∉ enums.map (·.canonicalName)
    · simp only [if_pos h]
      rfl
    · simp only [if_neg h]
      rfl

end TableDeclaration

namespace Graph

/-- The faults of tables in their order, where some names have been seen before. -/
def tableFaults (enums : List EnumType) :
    (seen : List String) → List TableDeclaration → List NormalizeError
  | _, [] => []
  | seen, t :: ts =>
    (if t.name ∈ seen then [.duplicateModel t.name] else []) ++
      (t.faults enums ++ tableFaults enums (t.name :: seen) ts)

theorem toModels_eq (enums : List EnumType) (resolved : ResolvedRelations) (seen : List String)
    (ts : List TableDeclaration) :
    toModels enums resolved seen ts =
      firstFaultOr (tableFaults enums seen ts) (ts.map (·.model resolved)) := by
  induction ts generalizing seen with
  | nil => rfl
  | cons t ts ih =>
    rw [toModels, tableFaults]
    by_cases hseen : t.name ∈ seen
    · rw [if_pos hseen, if_pos hseen]
      rfl
    · rw [if_neg hseen, if_neg hseen, List.nil_append, ih]
      rw [t.toModel_eq, TableDeclaration.faults, List.append_assoc]
      refine firstFaultOr_bind _ _ _ _ _ ?_
      rw [t.checkEnums_eq]
      exact firstFaultOr_bind _ _ _ _ _ (firstFaultOr_map _ _ _)

end Graph
end Schemata
