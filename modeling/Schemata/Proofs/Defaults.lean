import Schemata.Proofs.Columns
import Schemata.Proofs.Prisma.Lines
import Schemata.Proofs.Views
import Schemata.TypeScript.Document
/-!
# Which columns have a default

A declaration says whether its column has a default, and it may say which; neither follows from
the other. Both come to the column as they are, and only a generated value makes it one that has a
default. The two kinds of documents then ask different ones of them, so that they can disagree
(`defaults_agree_iff`).
-/

namespace Schemata

/-- Where no two things share a name, one is known by it. -/
theorem exists_mem_of_name_iff {α : Type} {name : α → String} {as : List α}
    (hnodup : (as.map name).Nodup) {a : α} (ha : a ∈ as) (p : α → Prop) :
    (∃ b ∈ as, name b = name a ∧ p b) ↔ p a := by
  constructor
  · rintro ⟨b, hb, hname, hp⟩
    rwa [← List.inj_on_of_nodup_map hnodup hb ha hname]
  · intro hp
    exact ⟨a, ha, rfl, hp⟩

namespace ColumnDeclaration

variable {c : ColumnDeclaration} {table : String} {column : Column}

/-- A value is generated only for a column that declares none. -/
theorem defaultValue_of_generatesId {type : ColumnType} {isArray : Bool}
    (h : c.generatesId type isArray = true) : c.defaultValue = none := by
  unfold generatesId at h
  rw [Bool.and_eq_true, Option.isNone_iff_eq_none] at h
  exact h.2

theorem hasDefault_of_hasGeneratedId (h : c.classify table = .ok column)
    (hid : column.hasGeneratedId = true) : column.hasDefault = true := by
  obtain ⟨type, isArray, -, rfl⟩ := exists_type_of_classify h
  have hgenerated : c.generatesId type isArray = true := hid
  rw [toColumn, hgenerated, Bool.or_true]

/-- A column whose value or whose generated value is a default has one, unless its declaration
gives a value without saying so. -/
theorem hasDefault_iff_of_classify (h : c.classify table = .ok column) :
    (column.defaultValue.isSome = true ∨ column.hasGeneratedId = true →
        column.hasDefault = true) ↔
      (c.defaultValue.isSome = true → c.hasDefault = true) := by
  by_cases hid : column.hasGeneratedId = true
  · -- Both sides hold: the column has a default, and the declaration gives no value.
    have hdefault := hasDefault_of_hasGeneratedId h hid
    obtain ⟨type, isArray, -, rfl⟩ := exists_type_of_classify h
    have hnone := defaultValue_of_generatesId hid
    simp [hdefault, hnone]
  · obtain ⟨type, isArray, -, rfl⟩ := exists_type_of_classify h
    have hgenerated : c.generatesId type isArray = false := Bool.eq_false_of_not_eq_true hid
    rw [or_iff_left hid, toColumn, hgenerated, Bool.or_false]

end ColumnDeclaration

namespace Prisma

/-- Whether the field of a column has an attribute for its default. -/
def ColumnLine.WritesDefault (l : ColumnLine) : Prop :=
  ∃ a ∈ l.attributes, "@default(".toList <+: a.toList

/-- The attributes that are not about defaults do not look like those that are. -/
theorem not_default_of_mem {c : Column} {a : String}
    (ha : a ∈ keyAttributes c ++ updatedAttributes c ++ storageAttributes c) :
    ¬"@default(".toList <+: a.toList := by
  intro hstart
  rw [List.mem_append, List.mem_append] at ha
  rcases ha with (hkey | hupdated) | hstorage
  · unfold keyAttributes at hkey
    split at hkey
    · simp_all
    · split at hkey <;> simp_all
  · unfold updatedAttributes at hupdated
    split at hupdated <;> simp_all
  · unfold storageAttributes at hstorage
    split at hstorage
    case h_3 =>
      split at hstorage <;> simp_all [toString]
    all_goals simp_all

theorem default_of_mem {c : Column} {a : String} (ha : a ∈ defaultAttributes c) :
    "@default(".toList <+: a.toList := by
  have hvalue (v : String) : "@default(".toList <+: s!"@default({v})".toList := by
    rw [String.toList_append, String.toList_append]
    exact (List.prefix_append _ _).trans (List.prefix_append _ _)
  -- The value of the default, if one is written, stands in the brackets.
  have hvalues {text : DefaultValue → String}
      (h : a ∈ c.defaultValue.toList.map fun v => s!"@default({text v})") :
      "@default(".toList <+: a.toList := by
    obtain ⟨v, -, rfl⟩ := List.mem_map.mp h
    exact hvalue (text v)
  unfold defaultAttributes at ha
  split at ha
  · rw [List.mem_singleton.mp ha]
    decide
  · split at ha
    case h_1 | h_2 =>
      split at ha
      · rw [List.mem_singleton.mp ha]
        decide
      · cases ha
    all_goals exact hvalues ha

theorem defaultAttributes_ne_nil_iff (c : Column) :
    defaultAttributes c ≠ [] ↔
      c.hasGeneratedId = true ∨
        if c.type = .date ∨ c.type = .datetime then c.hasDefault = true ∧ c.isUpdatedAt = false
        else c.defaultValue.isSome = true := by
  unfold defaultAttributes
  by_cases hgenerated : c.hasGeneratedId = true
  · simp [hgenerated]
  · rw [if_neg hgenerated]
    cases c.type <;> cases c.defaultValue <;> simp [hgenerated]

/-- A default is written for a generated value, for a point in time that has a default and is not
that of the last change, and for all else that has a value. -/
theorem writesDefault_columnLine_iff (c : Column) :
    (columnLine c).WritesDefault ↔
      c.hasGeneratedId = true ∨
        if c.type = .date ∨ c.type = .datetime then c.hasDefault = true ∧ c.isUpdatedAt = false
        else c.defaultValue.isSome = true := by
  rw [← defaultAttributes_ne_nil_iff]
  constructor
  · rintro ⟨a, ha, hstart⟩ hnil
    rw [columnLine, hnil, List.append_nil] at ha
    exact not_default_of_mem ha hstart
  · intro hsome
    obtain ⟨a, ha⟩ := List.exists_mem_of_ne_nil _ hsome
    refine ⟨a, ?_, default_of_mem ha⟩
    exact List.mem_append_left _ (List.mem_append_right _ ha)

/-- A line writes a default that its column does not have only for a value whose declaration does
not say so, and never for a point in time. -/
theorem hasDefault_of_writesDefault_iff {d : ColumnDeclaration} {table : String} {c : Column}
    (h : d.classify table = .ok c) :
    ((columnLine c).WritesDefault → c.hasDefault = true) ↔
      (d.defaultValue.isSome = true →
        d.hasDefault = true ∨ c.type = .date ∨ c.type = .datetime) := by
  rw [writesDefault_columnLine_iff]
  by_cases htime : c.type = .date ∨ c.type = .datetime
  · rw [if_pos htime]
    constructor
    · intro _ _
      exact .inr htime
    · rintro _ (hid | ⟨hdefault, -⟩)
      · exact ColumnDeclaration.hasDefault_of_hasGeneratedId h hid
      · exact hdefault
  · rw [if_neg htime, or_iff_left htime, or_comm]
    exact ColumnDeclaration.hasDefault_iff_of_classify h

/-- Whether the document writes a default for a field of a model. -/
def Document.WritesDefault (d : Document) (model field : String) : Prop :=
  ∃ b ∈ d.models, b.name = model ∧ ∃ l ∈ b.columns, l.name = field ∧ l.WritesDefault

end Prisma

/-- Whether the document says of a column of a model that it has a default. -/
def TypeScript.Document.SaysDefault (d : TypeScript.Document) (model field : String) : Prop :=
  ∃ e ∈ d.models, e.name = model ∧ ∃ k ∈ e.columns, k.fieldName = field ∧ k.hasDefault = true

namespace Graph

variable {policy : UnresolvedPolicy} {g : Graph} {s : Schema} {m : Model} {c : Column}

/-- What a Prisma document writes under the names of a model and of a column is the line of that
column, since nothing else goes by these names. -/
theorem writesDefault_document_iff (h : g.normalize policy = .ok s) (hm : m ∈ s.models)
    (hc : c ∈ m.columns) (preludeText : String) :
    (Prisma.document preludeText s).WritesDefault m.canonicalName c.fieldName ↔
      (Prisma.columnLine c).WritesDefault := by
  have hcolumn := exists_mem_of_name_iff (nodup_columns_of_normalize h hm) hc
    fun c => (Prisma.columnLine c).WritesDefault
  rw [← hcolumn, ← exists_mem_of_name_iff (distinctNames_of_normalize h) hm
    fun m => ∃ b ∈ m.columns, b.fieldName = c.fieldName ∧ (Prisma.columnLine b).WritesDefault]
  simp only [Prisma.Document.WritesDefault, Prisma.mem_models_document_iff,
    exists_exists_and_eq_and, Prisma.modelBlock, List.mem_map]
  rfl

theorem saysDefault_document_iff (h : g.normalize policy = .ok s) (hm : m ∈ s.models)
    (hc : c ∈ m.columns) :
    (TypeScript.document s).SaysDefault m.canonicalName c.fieldName ↔ c.hasDefault = true := by
  have hcolumn := exists_mem_of_name_iff (nodup_columns_of_normalize h hm) hc
    fun c => c.hasDefault = true
  rw [← hcolumn, ← exists_mem_of_name_iff (distinctNames_of_normalize h) hm
    fun m => ∃ b ∈ m.columns, b.fieldName = c.fieldName ∧ b.hasDefault = true]
  simp only [TypeScript.Document.SaysDefault, TypeScript.document, List.mem_map,
    exists_exists_and_eq_and, TypeScript.modelEntry]
  rfl

/-- A column has a default where its value or a generated one is a default, and the documents agree
on it, exactly if its declaration does not give a value without saying that it has a default. For
a point in time the documents agree in any case. -/
theorem defaults_agree_iff (h : g.normalize policy = .ok s) (hm : m ∈ s.models)
    (hc : c ∈ m.columns) (preludeText : String) :
    ∃ t d, g.tableNamed? m.canonicalName = some t ∧ d ∈ t.standing.columns ∧
      d.fieldName = c.fieldName ∧ (c.hasGeneratedId = true → c.hasDefault = true) ∧
      ((c.defaultValue.isSome = true ∨ c.hasGeneratedId = true → c.hasDefault = true) ↔
        (d.defaultValue.isSome = true → d.hasDefault = true)) ∧
      (((Prisma.document preludeText s).WritesDefault m.canonicalName c.fieldName →
          (TypeScript.document s).SaysDefault m.canonicalName c.fieldName) ↔
        (d.defaultValue.isSome = true →
          d.hasDefault = true ∨ c.type = .date ∨ c.type = .datetime)) := by
  rw [writesDefault_document_iff h hm hc, saysDefault_document_iff h hm hc]
  obtain ⟨t, -, rfl, hfaults, hnamed⟩ := exists_table_of_mem_models h hm
  obtain ⟨d, hd, hclassify⟩ := (TableDeclaration.mem_classifiedColumns_iff hfaults).mp hc
  have hname := (ColumnDeclaration.names_of_classify hclassify).1
  exact ⟨t, d, hnamed, hd, hname.symm, ColumnDeclaration.hasDefault_of_hasGeneratedId hclassify,
    ColumnDeclaration.hasDefault_iff_of_classify hclassify,
    Prisma.hasDefault_of_writesDefault_iff hclassify⟩

/-- A stock that starts with some pieces, and whose declaration says or does not say that it has a
default. -/
def stocks (hasDefault : Bool) : Graph where
  version := none
  entries := [
    .table ((TableDeclaration.ofName "Stock")
      |>.addColumn (ColumnDeclaration.ofName "id" .text "text").primaryKey
      |>.addColumn
        { ColumnDeclaration.ofName "pieces" .integer "integer" with
          hasDefault, defaultValue := some (.int 5) })]

/-- The column of the pieces. -/
def stockPieces (hasDefault : Bool) : Column :=
  { Column.ofType "pieces" "pieces" .int with hasDefault, defaultValue := some (.int 5) }

theorem defaults_agree_iff_stocks :
    ∃ s m, (stocks true).normalize .error = .ok s ∧ m ∈ s.models ∧ stockPieces true ∈ m.columns ∧
      (Prisma.document Prisma.defaultPrelude s).WritesDefault "Stock" "pieces" ∧
      (TypeScript.document s).SaysDefault "Stock" "pieces" := by
  have h : (stocks true).normalize .error = .ok (stocks true).schema := rfl
  have hm : (stocks true).schema.models[0] ∈ (stocks true).schema.models :=
    List.getElem_mem (by decide)
  have hc : stockPieces true ∈ (stocks true).schema.models[0].columns := by decide
  have hwrites := (writesDefault_document_iff h hm hc Prisma.defaultPrelude).mpr
    ((Prisma.writesDefault_columnLine_iff _).mpr (.inr rfl))
  obtain ⟨t, d, ht, hd, hname, -, -, hagree⟩ :=
    defaults_agree_iff h hm hc Prisma.defaultPrelude
  -- Both columns of the table state the default that they have.
  have hstated : d.defaultValue.isSome = true → d.hasDefault = true := by
    cases ht
    clear hname hagree
    revert d
    decide
  exact ⟨_, _, h, hm, hc, hwrites, hagree.mpr (fun hvalue => .inl (hstated hvalue)) hwrites⟩

/-- A column can have a value that is a default and not have a default, so that the one document
writes it and the other says that there is none. -/
theorem not_defaults_agree :
    (¬∀ (policy : UnresolvedPolicy) (g : Graph) (s : Schema), g.normalize policy = .ok s →
      ∀ m ∈ s.models, ∀ c ∈ m.columns,
        c.defaultValue.isSome = true ∨ c.hasGeneratedId = true → c.hasDefault = true) ∧
    ¬∀ (policy : UnresolvedPolicy) (g : Graph) (s : Schema) (preludeText : String),
      g.normalize policy = .ok s → ∀ m ∈ s.models, ∀ c ∈ m.columns,
        (Prisma.document preludeText s).WritesDefault m.canonicalName c.fieldName →
          (TypeScript.document s).SaysDefault m.canonicalName c.fieldName := by
  have h : (stocks false).normalize .error = .ok (stocks false).schema := rfl
  have hm : (stocks false).schema.models[0] ∈ (stocks false).schema.models :=
    List.getElem_mem (by decide)
  have hc : stockPieces false ∈ (stocks false).schema.models[0].columns := by decide
  constructor
  · intro hall
    have hdefault := hall .error _ _ h _ hm _ hc (.inl rfl)
    cases hdefault
  · intro hall
    have hwrites := (writesDefault_document_iff h hm hc Prisma.defaultPrelude).mpr
      ((Prisma.writesDefault_columnLine_iff _).mpr (.inr rfl))
    have hsays := hall .error _ _ Prisma.defaultPrelude h _ hm _ hc hwrites
    rw [saysDefault_document_iff h hm hc] at hsays
    cases hsays

end Graph
end Schemata
