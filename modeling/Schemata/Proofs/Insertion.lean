import Schemata.Proofs.Columns
/-!
# Columns that are added one after the other

A model keeps of each field name the column that was added last, in the place where the first one
was added, and an insertion gives back what was there before. So a table has the columns of the
last declarations of its field names (`last_insertions_stand`).
-/

namespace Schemata

namespace Model

/-- Adds columns one after the other: what each of them takes the place of, and the model then. -/
def insertColumns (m : Model) : List Column → List (Option Column) × Model
  | [] => ([], m)
  | c :: cs =>
    let (replaced, next) := m.insertColumn c
    let (later, last) := insertColumns next cs
    (replaced :: later, last)

theorem insertColumns_cons (m : Model) (c : Column) (cs : List Column) :
    m.insertColumns (c :: cs) =
      ((m.insertColumn c).1 :: ((m.insertColumn c).2.insertColumns cs).1,
        ((m.insertColumn c).2.insertColumns cs).2) := rfl

/-- A model has the columns that are left of those added to one without columns. -/
structure Keeps (m : Model) (cs : List Column) : Prop where
  distinct : (m.columns.map (·.fieldName)).Nodup
  order : m.columns.map (·.fieldName) = (cs.map (·.fieldName)).eraseDups
  last : ∀ c ∈ m.columns, cs.reverse.find? (fun d => d.fieldName == c.fieldName) = some c
  found : ∀ name, m.column? name = cs.reverse.find? fun d => d.fieldName == name

theorem columns_insertColumn {m : Model} {before : List Column}
    (hm : m.columns = lastOfEach Column.fieldName before) (c : Column) :
    (m.insertColumn c).2.columns = lastOfEach Column.fieldName (before ++ [c]) := by
  show insertInto c m.columns = _
  rw [hm, insertInto_lastOfEach]

theorem column?_of_columns {m : Model} {cs : List Column}
    (hm : m.columns = lastOfEach Column.fieldName cs) (name : String) :
    m.column? name = cs.reverse.find? fun d => d.fieldName == name := by
  rw [column?, hm]
  exact find?_lastOfEach Column.fieldName cs name

theorem keeps_of_columns {m : Model} {cs : List Column}
    (hm : m.columns = lastOfEach Column.fieldName cs) : m.Keeps cs := by
  have horder : m.columns.map (·.fieldName) = (cs.map (·.fieldName)).eraseDups := by
    rw [hm]
    exact map_name_lastOfEach Column.fieldName cs
  constructor
  case distinct =>
    rw [horder]
    exact nodup_eraseDups _
  case order => exact horder
  case last =>
    intro c hc
    rw [hm] at hc
    obtain ⟨name, -, hfound⟩ := List.mem_filterMap.mp hc
    rwa [name_of_find?_eq_some hfound]
  case found => exact column?_of_columns hm

/-- Behind any columns that were added before, the model has the last ones of all, and its other
parts stay as they are. -/
theorem insertColumns_snd {m : Model} {before : List Column}
    (hm : m.columns = lastOfEach Column.fieldName before) (cs : List Column) :
    (m.insertColumns cs).2 = { m with columns := lastOfEach Column.fieldName (before ++ cs) } := by
  induction cs generalizing m before with
  | nil =>
    rw [List.append_nil, ← hm]
    rfl
  | cons c cs ih =>
    rw [insertColumns_cons]
    show ((m.insertColumn c).2.insertColumns cs).2 = _
    rw [ih (columns_insertColumn hm c), List.append_assoc, List.singleton_append]
    rfl

/-- Each insertion gives back the last column that was added before it under its field name. -/
theorem getElem?_insertColumns_fst {m : Model} {before : List Column}
    (hm : m.columns = lastOfEach Column.fieldName before) (cs : List Column) (i : Nat) :
    (m.insertColumns cs).1[i]? = cs[i]?.map fun c =>
      (before ++ cs.take i).reverse.find? fun d => d.fieldName == c.fieldName := by
  induction cs generalizing m before i with
  | nil => rfl
  | cons c cs ih =>
    rw [insertColumns_cons]
    cases i with
    | zero =>
      show some (m.column? c.fieldName) = _
      rw [column?_of_columns hm, List.take_zero, List.append_nil]
      rfl
    | succ i =>
      show ((m.insertColumn c).2.insertColumns cs).1[i]? = _
      rw [ih (columns_insertColumn hm c), List.append_assoc]
      rfl

end Model

namespace TableDeclaration

/-- A model has a column for each field name that a table declares, of the declaration that comes
last under it, in the order in which the names first come. -/
structure Gives (t : TableDeclaration) (m : Model) : Prop where
  distinct : (m.columns.map (·.fieldName)).Nodup
  order : m.columns.map (·.fieldName) = (t.columns.map (·.fieldName)).eraseDups
  last : ∀ name d, t.columns.reverse.find? (fun d => d.fieldName == name) = some d →
    ∃ c, d.classify t.name = .ok c ∧ m.column? name = some c

/-- The columns that the declarations of a table are classified as, all of them. -/
def allColumns (t : TableDeclaration) : List Column :=
  t.columns.filterMap fun d => (d.classify t.name).toOption

theorem keeps_model (resolved : ResolvedRelations) (t : TableDeclaration) :
    (t.model resolved).Keeps t.allColumns := by
  apply Model.keeps_of_columns
  show t.classifiedColumns = _
  rw [classifiedColumns, Model.foldl_insertInto_eq]
  rfl

variable {t : TableDeclaration}

theorem map_fieldName_allColumns (hfaults : t.columnFaults = []) :
    t.allColumns.map (·.fieldName) = t.columns.map (·.fieldName) := by
  rw [allColumns, List.map_filterMap, ← List.filterMap_eq_map]
  apply List.filterMap_congr
  intro d hd
  obtain ⟨c, hsome, hc⟩ := exists_classify_of_no_fault hfaults hd
  rw [hsome, Option.map_some, (ColumnDeclaration.names_of_classify hc).1, Function.comp_apply]

/-- The last of the columns of a field name is that of the last declaration of the name. -/
theorem find?_reverse_allColumns (hfaults : t.columnFaults = []) (name : String) :
    (t.allColumns.reverse.find? fun c => c.fieldName == name) =
      (t.columns.reverse.find? fun d => d.fieldName == name).bind fun d =>
        (d.classify t.name).toOption := by
  rw [allColumns, ← List.filterMap_reverse, List.find?_filterMap]
  congr 1
  apply List.find?_congr
  intro d hd
  obtain ⟨c, hsome, hc⟩ := exists_classify_of_no_fault hfaults (List.mem_reverse.mp hd)
  rw [hsome, Option.any_some, (ColumnDeclaration.names_of_classify hc).1]

theorem gives_of_keeps (hfaults : t.columnFaults = []) {m : Model} (hm : m.Keeps t.allColumns) :
    t.Gives m := by
  constructor
  case distinct => exact hm.distinct
  case order => rw [hm.order, map_fieldName_allColumns hfaults]
  case last =>
    intro name d hd
    have hmem : d ∈ t.columns := List.mem_reverse.mp (List.mem_of_find?_eq_some hd)
    obtain ⟨c, hsome, hc⟩ := exists_classify_of_no_fault hfaults hmem
    refine ⟨c, hc, ?_⟩
    rw [hm.found, find?_reverse_allColumns hfaults, hd, Option.bind_some, hsome]

end TableDeclaration

/-- Of each field name the column that is added last stands, in the order in which the names are
first added, and each insertion gives back what stood there. So a table whose columns can be
classified has those of the last declarations of its field names, unless one of its indexes is
refused. -/
theorem last_insertions_stand :
    (∀ name binding cs, ((Model.ofName name binding).insertColumns cs).2.Keeps cs ∧
      ∀ i : Nat, ((Model.ofName name binding).insertColumns cs).1[i]? = cs[i]?.map fun c =>
        ((Model.ofName name binding).insertColumns (cs.take i)).2.column? c.fieldName) ∧
    ∀ (t : TableDeclaration) (resolved : ResolvedRelations),
      (∀ d ∈ t.columns, ∃ c, d.classify t.name = .ok c) →
        (∃ indexes m, t.toIndexes = .ok indexes ∧ t.toModel resolved = .ok m ∧ t.Gives m) ∨
          ∃ e, t.toIndexes = .error e ∧ t.toModel resolved = .error e := by
  constructor
  · intro name binding cs
    have hnew : (Model.ofName name binding).columns = lastOfEach Column.fieldName [] := rfl
    have hrun (ds : List Column) : ((Model.ofName name binding).insertColumns ds).2.Keeps ds := by
      apply Model.keeps_of_columns
      rw [Model.insertColumns_snd hnew, List.nil_append]
    refine ⟨hrun cs, fun i => ?_⟩
    rw [Model.getElem?_insertColumns_fst hnew, List.nil_append]
    simp only [(hrun (cs.take i)).found]
  · intro t resolved hclassified
    have hfaults : t.columnFaults = [] :=
      List.filterMap_eq_nil_iff.mpr fun d hd => fault?_eq_none_iff.mpr (hclassified d hd)
    have hmodel : t.toModel resolved = firstFaultOr t.indexFaults (t.model resolved) := by
      rw [t.toModel_eq, hfaults, List.nil_append]
    have hindexes : t.toIndexes = firstFaultOr t.indexFaults t.acceptedIndexes :=
      mapM_eq_firstFaultOr _ _
    cases hi : t.indexFaults with
    | nil =>
      rw [hi] at hmodel hindexes
      exact .inl ⟨_, _, hindexes, hmodel, t.gives_of_keeps hfaults (t.keeps_model resolved)⟩
    | cons e es =>
      rw [hi] at hmodel hindexes
      exact .inr ⟨e, hindexes, hmodel⟩

/-- A table that declares its key again, under another name in storage and as a number. -/
def tags : TableDeclaration :=
  (TableDeclaration.ofName "Tag")
    |>.addColumn (.ofName "id" .text "text")
    |>.addColumn (.ofName "label" .varchar "varchar(40)")
    |>.addColumn { ColumnDeclaration.ofName "tag_id" .integer "integer" with fieldName := "id" }

theorem last_insertions_stand_tags :
    (∀ d ∈ tags.columns, ∃ c, d.classify tags.name = .ok c) ∧
      ∃ m, tags.toModel ⟨[], []⟩ = .ok m ∧ tags.Gives m ∧
        m.column? "id" = some (.ofType "id" "tag_id" .int) := by
  have hfaultless : ∀ d ∈ tags.columns, fault? (d.classify tags.name) = none := by decide
  have hclassified : ∀ d ∈ tags.columns, ∃ c, d.classify tags.name = .ok c :=
    fun d hd => fault?_eq_none_iff.mp (hfaultless d hd)
  obtain ⟨_, m, -, hm, hgives⟩ | ⟨e, herror, -⟩ :=
    last_insertions_stand.2 tags ⟨[], []⟩ hclassified
  · obtain ⟨c, hc, hfound⟩ := hgives.last "id" _ rfl
    cases hc
    exact ⟨hclassified, m, hm, hgives, hfound⟩
  · cases herror

end Schemata
