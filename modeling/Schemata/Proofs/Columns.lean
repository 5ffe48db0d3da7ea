import Mathlib.Data.List.Find
import Mathlib.Data.List.Induction
import Schemata.Proofs.Assembly
import Schemata.Proofs.Resolution
/-!
# Which declarations of columns stand

A column that is declared again under its field name gives its place to the later declaration.
The columns of a model are those of the declarations that stand: of each field name the last one,
in the order in which the field names first come.
-/

namespace Schemata

section LastOfEach

variable {α β : Type}

/-- Of the things of each name the last one, in the order in which the names first come. -/
def lastOfEach (name : α → String) (as : List α) : List α :=
  (as.map name).eraseDups.filterMap fun n => as.reverse.find? fun a => name a == n

theorem find?_reverse_concat (name : α → String) (as : List α) (a : α) (n : String) :
    ((as ++ [a]).reverse.find? fun b => name b == n) =
      if name a = n then some a else as.reverse.find? fun b => name b == n := by
  rw [List.reverse_concat]
  by_cases h : name a = n
  · rw [if_pos h]
    exact List.find?_cons_of_pos (beq_iff_eq.mpr h)
  · rw [if_neg h]
    exact List.find?_cons_of_neg fun hname => h (eq_of_beq hname)

theorem name_of_find?_eq_some {name : α → String} {as : List α} {n : String} {a : α}
    (h : as.reverse.find? (fun b => name b == n) = some a) : name a = n := by
  have hfound := List.find?_some h
  exact eq_of_beq hfound

theorem exists_find?_of_mem {name : α → String} {as : List α} {n : String}
    (h : n ∈ as.map name) : ∃ a, as.reverse.find? (fun b => name b == n) = some a := by
  obtain ⟨a, ha, rfl⟩ := List.mem_map.mp h
  rw [← Option.isSome_iff_exists, List.find?_isSome]
  exact ⟨a, List.mem_reverse.mpr ha, beq_self_eq_true _⟩

theorem map_name_lastOfEach (name : α → String) (as : List α) :
    (lastOfEach name as).map name = (as.map name).eraseDups := by
  rw [lastOfEach, List.map_filterMap]
  refine (List.filterMap_congr fun n hn => ?_).trans List.filterMap_some
  obtain ⟨a, ha⟩ := exists_find?_of_mem (List.mem_eraseDups.mp hn)
  rw [ha, Option.map_some, name_of_find?_eq_some ha]

/-- One more thing takes the place of that of its name, or comes last. -/
theorem lastOfEach_concat (name : α → String) (as : List α) (a : α) :
    lastOfEach name (as ++ [a]) =
      if name a ∈ as.map name then
        (lastOfEach name as).map fun b => if name b = name a then a else b
      else lastOfEach name as ++ [a] := by
  have hname : (as ++ [a]).map name = as.map name ++ [name a] := by
    rw [List.map_append, List.map_singleton]
  simp only [lastOfEach, hname, eraseDups_concat, find?_reverse_concat]
  by_cases hold : name a ∈ as.map name
  · rw [if_pos hold, if_pos hold, List.map_filterMap]
    refine List.filterMap_congr fun n hn => ?_
    obtain ⟨b, hb⟩ := exists_find?_of_mem (List.mem_eraseDups.mp hn)
    rw [hb, Option.map_some, name_of_find?_eq_some hb]
    by_cases hn : name a = n
    · rw [if_pos hn, if_pos hn.symm]
    · rw [if_neg hn, if_neg (Ne.symm hn)]
  · rw [if_neg hold, if_neg hold, List.filterMap_append]
    congr 1
    · refine List.filterMap_congr fun n hn => if_neg ?_
      rintro rfl
      exact hold (List.mem_eraseDups.mp hn)
    · rw [List.filterMap_cons, if_pos rfl, List.filterMap_nil]

/-- Things that keep their names when they are turned into others are the last ones then, too. -/
theorem lastOfEach_filterMap {name : α → String} {name' : β → String} {as : List α}
    {f : α → Option β} (hf : ∀ a ∈ as, ∃ b, f a = some b ∧ name' b = name a) :
    lastOfEach name' (as.filterMap f) = (lastOfEach name as).filterMap f := by
  have hnames : (as.filterMap f).map name' = as.map name := by
    rw [List.map_filterMap, ← List.filterMap_eq_map]
    refine List.filterMap_congr fun a ha => ?_
    obtain ⟨b, hb, hname⟩ := hf a ha
    rw [hb, Option.map_some, hname, Function.comp_apply]
  rw [lastOfEach, hnames, lastOfEach, List.filterMap_filterMap]
  refine List.filterMap_congr fun n _ => ?_
  rw [← List.filterMap_reverse, List.find?_filterMap]
  congr 1
  refine List.find?_congr fun a ha => ?_
  obtain ⟨b, hb, hname⟩ := hf a (List.mem_reverse.mp ha)
  rw [hb, Option.any_some, hname]

/-- What is found under a name is the last thing of it. -/
theorem find?_lastOfEach (name : α → String) (as : List α) (n : String) :
    ((lastOfEach name as).find? fun a => name a == n) =
      as.reverse.find? fun a => name a == n := by
  have hfind : ((as.map name).eraseDups.find? fun m =>
      (as.reverse.find? fun a => name a == m).any fun a => name a == n) =
      (as.map name).eraseDups.find? fun m => m == n := by
    refine List.find?_congr fun m hm => ?_
    obtain ⟨a, ha⟩ := exists_find?_of_mem (List.mem_eraseDups.mp hm)
    rw [ha, Option.any_some, name_of_find?_eq_some ha]
  rw [lastOfEach, List.find?_filterMap, hfind]
  by_cases hn : n ∈ as.map name
  · obtain ⟨m, hm⟩ : ∃ m, ((as.map name).eraseDups.find? fun m => m == n) = some m := by
      rw [← Option.isSome_iff_exists, List.find?_isSome]
      exact ⟨n, List.mem_eraseDups.mpr hn, beq_self_eq_true n⟩
    have hsame : m = n := by
      have hfound := List.find?_some hm
      exact eq_of_beq hfound
    rw [hm, Option.bind_some, hsame]
  · have hnone : ∀ m ∈ (as.map name).eraseDups, ¬(m == n) = true := fun m hm heq =>
      hn (eq_of_beq heq ▸ List.mem_eraseDups.mp hm)
    rw [List.find?_eq_none.mpr hnone, Option.bind_none]
    symm
    apply List.find?_eq_none.mpr
    intro a ha heq
    exact hn (eq_of_beq heq ▸ List.mem_map_of_mem (List.mem_reverse.mp ha))

theorem lastOfEach_eq_self {name : α → String} {as : List α} (h : (as.map name).Nodup) :
    lastOfEach name as = as := by
  induction as using List.reverseRecOn with
  | nil => rfl
  | append_singleton as a ih =>
    rw [List.map_append, List.map_singleton, List.nodup_append] at h
    have hnew : name a ∉ as.map name := fun hold => h.2.2 _ hold _ (List.mem_singleton_self _) rfl
    rw [lastOfEach_concat, if_neg hnew, ih h.1]

end LastOfEach

namespace Model

theorem insertInto_of_not_mem {c : Column} {ds : List Column}
    (h : c.fieldName ∉ ds.map (·.fieldName)) : insertInto c ds = ds ++ [c] := by
  induction ds with
  | nil => rfl
  | cons d ds ih =>
    rw [List.map_cons, List.mem_cons, not_or] at h
    rw [insertInto, if_neg (Ne.symm h.1), ih h.2, List.cons_append]

theorem insertInto_of_mem {c : Column} {ds : List Column} (hnodup : (ds.map (·.fieldName)).Nodup)
    (h : c.fieldName ∈ ds.map (·.fieldName)) :
    insertInto c ds = ds.map fun d => if d.fieldName = c.fieldName then c else d := by
  induction ds with
  | nil => cases h
  | cons d ds ih =>
    rw [List.map_cons, List.nodup_cons] at hnodup
    rw [insertInto, List.map_cons]
    by_cases hname : d.fieldName = c.fieldName
    · -- The name does not come again behind its first place.
      have hrest : ∀ e ∈ ds, ¬e.fieldName = c.fieldName := fun e he heq =>
        hnodup.1 (hname ▸ heq ▸ List.mem_map_of_mem he)
      rw [if_pos hname, if_pos hname, List.map_congr_left fun e he => if_neg (hrest e he),
        List.map_id']
    · rw [if_neg hname, if_neg hname]
      have htail : c.fieldName ∈ ds.map (·.fieldName) := by
        rw [List.map_cons, List.mem_cons] at h
        exact h.resolve_left (Ne.symm hname)
      rw [ih hnodup.2 htail]

/-- One more column takes the place of that of its field name, or comes last. -/
theorem insertInto_lastOfEach (cs : List Column) (c : Column) :
    insertInto c (lastOfEach Column.fieldName cs) = lastOfEach Column.fieldName (cs ++ [c]) := by
  have hnames : (lastOfEach Column.fieldName cs).map (·.fieldName) =
      (cs.map (·.fieldName)).eraseDups :=
    map_name_lastOfEach Column.fieldName cs
  rw [lastOfEach_concat]
  by_cases h : c.fieldName ∈ cs.map (·.fieldName)
  · rw [if_pos h]
    apply insertInto_of_mem
    · rw [hnames]
      exact nodup_eraseDups _
    · rw [hnames]
      exact List.mem_eraseDups.mpr h
  · rw [if_neg h]
    apply insertInto_of_not_mem
    rw [hnames]
    exact fun hold => h (List.mem_eraseDups.mp hold)

/-- Columns that are added one after the other: of each field name the last one stands. -/
theorem foldl_insertInto_eq (cs : List Column) :
    cs.foldl (fun ds c => insertInto c ds) [] = lastOfEach Column.fieldName cs := by
  induction cs using List.reverseRecOn with
  | nil => rfl
  | append_singleton cs c ih =>
    rw [List.foldl_append, List.foldl_cons, List.foldl_nil, ih, insertInto_lastOfEach]

end Model

namespace ColumnDeclaration

/-- A column is made of its declaration and the type that this is classified as. -/
theorem exists_type_of_classify {c : ColumnDeclaration} {table : String} {column : Column}
    (h : c.classify table = .ok column) :
    ∃ type isArray, c.classifyType table = .ok (type, isArray) ∧
      c.toColumn type isArray = column := by
  rw [classify] at h
  obtain ⟨⟨type, isArray⟩, htype, hcolumn⟩ := map_eq_ok h
  exact ⟨type, isArray, htype, hcolumn⟩

/-- What classification leaves of a declaration as it is. -/
theorem names_of_classify {c : ColumnDeclaration} {table : String} {column : Column}
    (h : c.classify table = .ok column) :
    column.fieldName = c.fieldName ∧ column.canonicalName = c.name ∧
      column.isNullable = c.isNullable := by
  obtain ⟨type, isArray, -, rfl⟩ := exists_type_of_classify h
  exact ⟨rfl, rfl, rfl⟩

/-- A column is classified as an enum only where it is stored as one and names it, and as an array
only of texts or of JSON values. -/
theorem classifyType_cases {c : ColumnDeclaration} {table : String} {type : ColumnType}
    {isArray : Bool} (h : c.classifyType table = .ok (type, isArray)) :
    (c.storage = .enum ∧ (∃ name, c.enumName = some name) ∧ type = .enum ∧ isArray = false) ∨
      type ≠ .enum ∧ (isArray = true → type = .text ∨ type = .json) := by
  unfold classifyType refused at h
  cases hstorage : c.storage with
  | enum =>
    simp only [hstorage] at h
    split at h
    · cases h
    · next hname =>
      cases h
      left
      exact ⟨rfl, Option.ne_none_iff_exists'.mp (by simpa using hname), rfl, rfl⟩
  | array =>
    simp only [hstorage] at h
    right
    -- The type is one of the two that arrays hold, or the column is refused.
    split at h
    · cases h
      exact ⟨by decide, fun _ => .inl rfl⟩
    · split at h
      · cases h
        exact ⟨by decide, fun _ => .inr rfl⟩
      · cases h
  | custom =>
    simp only [hstorage] at h
    right
    split at h
    · cases h
      exact ⟨by decide, nofun⟩
    · cases h
  | other name =>
    rw [hstorage] at h
    cases h
  | _ =>
    rw [hstorage] at h
    cases h
    exact .inr ⟨by decide, nofun⟩

/-- A column names an enum only if it holds one, which is then the enum of its declaration. -/
theorem enumName_of_classify {c : ColumnDeclaration} {table name : String} {column : Column}
    (h : c.classify table = .ok column) (hname : column.enumName = some name) :
    c.storage = .enum ∧ c.enumName = some name := by
  obtain ⟨type, isArray, htype, rfl⟩ := exists_type_of_classify h
  obtain ⟨hstorage, -, henum, -⟩ | ⟨hother, -⟩ := classifyType_cases htype
  · rw [toColumn, if_pos henum] at hname
    exact ⟨hstorage, hname⟩
  · rw [toColumn, if_neg hother] at hname
    cases hname

end ColumnDeclaration

namespace TableDeclaration

/-- The table with only those declarations of columns that no later one replaces. -/
def standing (t : TableDeclaration) : TableDeclaration :=
  { t with columns := lastOfEach ColumnDeclaration.fieldName t.columns }

theorem standing_eq_self {t : TableDeclaration} (h : (t.columns.map (·.fieldName)).Nodup) :
    t.standing = t := by
  rw [standing, lastOfEach_eq_self h]

variable {t : TableDeclaration}

theorem exists_classify_of_no_fault (hfaults : t.columnFaults = []) {c : ColumnDeclaration}
    (hc : c ∈ t.columns) :
    ∃ column, (c.classify t.name).toOption = some column ∧ c.classify t.name = .ok column := by
  obtain ⟨column, hcolumn⟩ :=
    fault?_eq_none_iff.mp (List.filterMap_eq_nil_iff.mp hfaults c hc)
  exact ⟨column, by rw [hcolumn, Except.toOption], hcolumn⟩

theorem mem_columns_of_mem_standing {c : ColumnDeclaration} (hc : c ∈ t.standing.columns) :
    c ∈ t.columns := by
  obtain ⟨n, -, hfound⟩ := List.mem_filterMap.mp hc
  exact List.mem_reverse.mp (List.mem_of_find?_eq_some hfound)

/-- The columns of a table are those of the declarations that stand. -/
theorem classifiedColumns_eq (hfaults : t.columnFaults = []) :
    t.classifiedColumns =
      t.standing.columns.filterMap fun c => (c.classify t.name).toOption := by
  rw [classifiedColumns, Model.foldl_insertInto_eq, standing]
  refine lastOfEach_filterMap fun c hc => ?_
  obtain ⟨column, hsome, hcolumn⟩ := exists_classify_of_no_fault hfaults hc
  exact ⟨column, hsome, (ColumnDeclaration.names_of_classify hcolumn).1⟩

theorem mem_classifiedColumns_iff (hfaults : t.columnFaults = []) {column : Column} :
    column ∈ t.classifiedColumns ↔
      ∃ c ∈ t.standing.columns, c.classify t.name = .ok column := by
  rw [classifiedColumns_eq hfaults, List.mem_filterMap]
  refine exists_congr fun c => and_congr_right fun hc => ?_
  obtain ⟨column', hsome, hok⟩ :=
    exists_classify_of_no_fault hfaults (mem_columns_of_mem_standing hc)
  rw [hsome, hok, Option.some.injEq, Except.ok.injEq]

/-- The first column of a name in storage is that of the first declaration of the name among those
that stand. -/
theorem find?_classifiedColumns (hfaults : t.columnFaults = []) (name : String) :
    (t.classifiedColumns.find? fun c => c.canonicalName == name) =
      (t.standing.columnNamed? name).bind fun c => (c.classify t.name).toOption := by
  rw [classifiedColumns_eq hfaults, List.find?_filterMap, columnNamed?]
  congr 1
  refine List.find?_congr fun c hc => ?_
  obtain ⟨column, hsome, hcolumn⟩ :=
    exists_classify_of_no_fault hfaults (mem_columns_of_mem_standing hc)
  rw [hsome, Option.any_some, (ColumnDeclaration.names_of_classify hcolumn).2.1]

end TableDeclaration
end Schemata
