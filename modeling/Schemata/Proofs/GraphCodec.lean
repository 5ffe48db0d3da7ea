import Schemata.Proofs.Json.Values
import Schemata.Proofs.Records
/-!
# Graphs as JSON values

Each part of a graph is read back from its JSON as it was, and its JSON nests only so deep. A kind
of storage or a cardinality that is not known by its name is read back unless its name is one of
those that are known.
-/

namespace Schemata

open Json (readable_ofOption readable_ofList forall_readable_nil forall_readable_cons)

variable {depth : Nat}

theorem Json.readable_ofTexts (texts : List String) :
    (Json.ofTexts texts).Readable (depth + 1) :=
  readable_ofList fun s _ => .text s

section Options

theorem readOption_text (o : Option String) :
    Datum.readOption Datum.readText (Json.ofOption .text o).toDatum = .ok o := by
  cases o <;> rfl

theorem readOption_bool (o : Option Bool) :
    Datum.readOption Datum.readBool (Json.ofOption .bool o).toDatum = .ok o := by
  cases o <;> rfl

theorem readUInt32_toNat (n : UInt32) : Datum.readUInt32 (.int n.toNat) = .ok n := by
  have hsize : (n.toNat : Int) < UInt32.size := Int.ofNat_lt.mpr n.toNat_lt_size
  rw [Datum.readUInt32, if_pos ⟨Int.natCast_nonneg _, hsize⟩, Int.toNat_natCast,
    UInt32.ofNat_toNat]

theorem readOption_uint32 (o : Option UInt32) :
    Datum.readOption Datum.readUInt32 (Json.ofOption (fun n => .int n.toNat) o).toDatum = .ok o :=
  readOption_ofOption (by rintro n - ⟨⟩) fun n _ => readUInt32_toNat n

theorem readable_uint32 (n : UInt32) : (Json.int n.toNat).Readable depth := by
  have hsize := n.toNat_lt_size
  refine .int ?_ ?_
  · have hlow : Int64.minValue.toInt ≤ 0 := by decide
    omega
  · have hsizes : UInt32.size ≤ UInt64.size := by decide
    omega

end Options

namespace StorageKind

/-- A kind that is not known by its name does not have the name of a known one. -/
def Unreserved (kind : StorageKind) : Prop :=
  ∀ name, kind = .other name → name ∉ known.map StorageKind.name

theorem ofName_name {kind : StorageKind} (h : kind.Unreserved) : ofName kind.name = kind := by
  cases kind
  case other name =>
    have hfind : known.find? (fun kind => kind.name == name) = none := by
      rw [List.find?_eq_none]
      intro kind hkind hname
      exact h name rfl (List.mem_map.mpr ⟨kind, hkind, eq_of_beq hname⟩)
    show (known.find? fun kind => kind.name == name).getD (.other name) = _
    rw [hfind]
    rfl
  all_goals
    rfl

theorem unreserved_ofName (name : String) : (ofName name).Unreserved := by
  have hknown : ∀ kind ∈ known, ∀ name, kind ≠ .other name := by
    rintro _ hkind name rfl
    simp [known] at hkind
  unfold ofName
  cases hfind : known.find? fun kind => kind.name == name with
  | some kind => exact fun name' heq => absurd heq (hknown kind (List.mem_of_find?_eq_some hfind) _)
  | none =>
    rintro _ ⟨⟩ hmem
    obtain ⟨kind, hkind, hname⟩ := List.mem_map.mp hmem
    exact List.find?_eq_none.mp hfind kind hkind (beq_iff_eq.mpr hname)

theorem unreserved_iff {kind : StorageKind} : kind.Unreserved ↔ ofName kind.name = kind :=
  ⟨ofName_name, fun h => h ▸ unreserved_ofName kind.name⟩

instance (kind : StorageKind) : Decidable kind.Unreserved :=
  decidable_of_iff _ unreserved_iff.symm

theorem read_toJson {kind : StorageKind} (h : kind.Unreserved) :
    read kind.toJson.toDatum = .ok kind :=
  congrArg Except.ok (ofName_name h)

theorem unreserved_of_read {d : Datum} {kind : StorageKind} (h : read d = .ok kind) :
    kind.Unreserved := by
  obtain ⟨name, -, rfl⟩ := map_eq_ok h
  exact unreserved_ofName name

end StorageKind

namespace Cardinality

/-- A cardinality that is not known by its name does not have the name of a known one. -/
def Unreserved (c : Cardinality) : Prop :=
  ∀ name, c = .other name → name ≠ "one" ∧ name ≠ "many"

theorem ofName_name {c : Cardinality} (h : c.Unreserved) : ofName c.name = c := by
  cases c with
  | one => rfl
  | many => rfl
  | other name =>
    obtain ⟨hone, hmany⟩ := h name rfl
    show ofName name = _
    rw [ofName, if_neg hone, if_neg hmany]

theorem unreserved_ofName (name : String) : (ofName name).Unreserved := by
  unfold ofName
  split_ifs with hone hmany
  · rintro _ ⟨⟩
  · rintro _ ⟨⟩
  · rintro _ ⟨⟩
    exact ⟨hone, hmany⟩

theorem unreserved_iff {c : Cardinality} : c.Unreserved ↔ ofName c.name = c :=
  ⟨ofName_name, fun h => h ▸ unreserved_ofName c.name⟩

instance (c : Cardinality) : Decidable c.Unreserved :=
  decidable_of_iff _ unreserved_iff.symm

theorem read_toJson {c : Cardinality} (h : c.Unreserved) : read c.toJson.toDatum = .ok c :=
  congrArg Except.ok (ofName_name h)

theorem unreserved_of_read {d : Datum} {c : Cardinality} (h : read d = .ok c) :
    c.Unreserved := by
  obtain ⟨name, -, rfl⟩ := map_eq_ok h
  exact unreserved_ofName name

end Cardinality

namespace DefaultValue

/-- If the value is a floating-point number, its canonical text reads back. -/
def ReadsBack : DefaultValue → Prop
  | .float x => Json.ReadsBack x
  | _ => True

instance : (v : DefaultValue) → Decidable v.ReadsBack
  | .float x => inferInstanceAs (Decidable (Json.ReadsBack x))
  | .bool _ | .int _ | .text _ => .isTrue trivial

theorem toDatum_toJson_ne_null (v : DefaultValue) : v.toJson.toDatum ≠ .null := by
  cases v <;> rintro ⟨⟩

/-- No kind of default value is taken for another. -/
theorem read_toJson (v : DefaultValue) : read v.toJson.toDatum = .ok v := by
  cases v with
  | int value =>
    -- A whole number that fits 64 bits is never read as a floating-point number.
    have hvalue : ofInt? value.toInt = some (.int value) := by
      rw [ofInt?, if_pos ⟨value.minValue_le_toInt, value.toInt_le⟩, Int64.ofInt_toInt]
    show read (.int value.toInt) = _
    rw [read, hvalue]
  | bool value => rfl
  | float value => rfl
  | text value => rfl

theorem readOption_toJson (o : Option DefaultValue) :
    Datum.readOption read (Json.ofOption toJson o).toDatum = .ok o :=
  readOption_ofOption (fun v _ => v.toDatum_toJson_ne_null) fun v _ => v.read_toJson

theorem readable_toJson {v : DefaultValue} (h : v.ReadsBack) : v.toJson.Readable depth := by
  cases v with
  | bool value => exact .bool value
  | int value =>
    have hhigh : value.toInt < UInt64.size := by
      have hmax : Int64.maxValue.toInt < UInt64.size := by decide
      have hvalue := value.toInt_le
      omega
    exact .int value.minValue_le_toInt hhigh
  | float value => exact .float h
  | text value => exact .text value

end DefaultValue

namespace EnumDeclaration

theorem read_toMembers (d : EnumDeclaration) : read (Json.object d.toMembers).toDatum = .ok d :=
  Fields.Read.map_read_eq (.cons rfl <| .cons rfl <| .cons (readList_ofTexts d.values) .nil)
    (by decide) rfl

theorem readable_toMembers (d : EnumDeclaration) : ∀ m ∈ d.toMembers, m.2.Readable (depth + 1) :=
  forall_readable_cons (.text _) <| forall_readable_cons (.text _) <|
  forall_readable_cons (Json.readable_ofTexts _) forall_readable_nil

end EnumDeclaration

namespace ColumnDeclaration

theorem read_toJson {c : ColumnDeclaration} (h : c.storage.Unreserved) :
    read c.toJson.toDatum = .ok c :=
  Fields.Read.map_read_eq
    (.cons rfl <| .cons rfl <| .cons (StorageKind.read_toJson h) <| .cons rfl <| .cons rfl <|
      .cons rfl <| .cons (DefaultValue.readOption_toJson c.defaultValue) <| .cons rfl <|
      .cons rfl <| .cons (readOption_text c.enumName) <| .cons (readOption_uint32 c.length) <|
      .cons rfl .nil)
    (by decide) rfl

theorem unreserved_of_read {d : Datum} {c : ColumnDeclaration} (h : read d = .ok c) :
    c.storage.Unreserved := by
  obtain ⟨values, hvalues, rfl⟩ := map_eq_ok h
  have hgiven := Fields.given_of_read hvalues
  obtain ⟨d, hstorage⟩ := exists_read_of_given_required hgiven.tail.tail.head
  exact StorageKind.unreserved_of_read hstorage

theorem readable_toJson {c : ColumnDeclaration} (h : ∀ v ∈ c.defaultValue, v.ReadsBack) :
    c.toJson.Readable (depth + 1) :=
  .object <|
    forall_readable_cons (.text _) <| forall_readable_cons (.text _) <|
    forall_readable_cons (.text _) <| forall_readable_cons (.text _) <|
    forall_readable_cons (.bool _) <| forall_readable_cons (.bool _) <|
    forall_readable_cons (readable_ofOption fun v hv => DefaultValue.readable_toJson (h v hv)) <|
    forall_readable_cons (.bool _) <| forall_readable_cons (.bool _) <|
    forall_readable_cons (readable_ofOption fun s _ => .text s) <|
    forall_readable_cons (readable_ofOption fun n _ => readable_uint32 n) <|
    forall_readable_cons (.bool _) forall_readable_nil

end ColumnDeclaration

namespace IndexDeclaration

theorem read_toJson (i : IndexDeclaration) : read i.toJson.toDatum = .ok i :=
  Fields.Read.map_read_eq
    (.cons rfl <| .cons (readList_ofTexts i.columns) <| .cons (readOption_bool i.unique) <|
      .cons (readOption_text i.kind) .nil)
    (by decide) rfl

theorem readable_toJson (i : IndexDeclaration) : i.toJson.Readable (depth + 2) :=
  .object <|
    forall_readable_cons (.text _) <| forall_readable_cons (Json.readable_ofTexts _) <|
    forall_readable_cons (readable_ofOption fun b _ => .bool b) <|
    forall_readable_cons (readable_ofOption fun s _ => .text s) forall_readable_nil

end IndexDeclaration

namespace ForeignKey

theorem read_toJson (k : ForeignKey) : read k.toJson.toDatum = .ok k :=
  Fields.Read.map_read_eq
    (.cons (readList_ofTexts k.columns) <| .cons rfl <|
      .cons (readList_ofTexts k.foreignColumns) .nil)
    (by decide) rfl

theorem readable_toJson (k : ForeignKey) : k.toJson.Readable (depth + 2) :=
  .object <|
    forall_readable_cons (Json.readable_ofTexts _) <| forall_readable_cons (.text _) <|
    forall_readable_cons (Json.readable_ofTexts _) forall_readable_nil

end ForeignKey

namespace TableDeclaration

theorem read_toMembers {t : TableDeclaration} (h : ∀ c ∈ t.columns, c.storage.Unreserved) :
    read (Json.object t.toMembers).toDatum = .ok t :=
  Fields.Read.map_read_eq
    (.cons rfl <| .cons rfl <|
      .cons (readList_ofList fun c hc => ColumnDeclaration.read_toJson (h c hc)) <|
      .cons (readOption_ofOption (by rintro is - ⟨⟩)
        fun _ _ => readList_ofList fun i _ => i.read_toJson) <|
      .cons (readList_ofList fun k _ => k.read_toJson) .nil)
    (by decide) rfl

theorem unreserved_of_read {d : Datum} {t : TableDeclaration} (h : read d = .ok t) :
    ∀ c ∈ t.columns, c.storage.Unreserved := by
  obtain ⟨values, hvalues, rfl⟩ := map_eq_ok h
  intro c hc
  obtain ⟨d, hcolumn⟩ :=
    exists_read_of_mem_given_list (Fields.given_of_read hvalues).tail.tail.head c hc
  exact ColumnDeclaration.unreserved_of_read hcolumn

theorem readable_toMembers {t : TableDeclaration}
    (h : ∀ c ∈ t.columns, ∀ v ∈ c.defaultValue, v.ReadsBack) :
    ∀ m ∈ t.toMembers, m.2.Readable (depth + 3) :=
  forall_readable_cons (.text _) <| forall_readable_cons (.text _) <|
  forall_readable_cons
    (readable_ofList fun c hc => ColumnDeclaration.readable_toJson (h c hc)) <|
  forall_readable_cons
    (readable_ofOption fun _ _ => readable_ofList fun i _ => i.readable_toJson) <|
  forall_readable_cons (readable_ofList fun k _ => k.readable_toJson) forall_readable_nil

end TableDeclaration

namespace RelationSettings

theorem read_toJson (s : RelationSettings) : read s.toJson.toDatum = .ok s :=
  Fields.Read.map_read_eq
    (.cons (readList_ofTexts s.fields) <| .cons (readList_ofTexts s.references) <|
      .cons (readOption_bool s.optional) <| .cons (readOption_text s.relationName) .nil)
    (by decide) rfl

theorem readable_toJson (s : RelationSettings) : s.toJson.Readable (depth + 2) :=
  .object <|
    forall_readable_cons (Json.readable_ofTexts _) <|
    forall_readable_cons (Json.readable_ofTexts _) <|
    forall_readable_cons (readable_ofOption fun b _ => .bool b) <|
    forall_readable_cons (readable_ofOption fun s _ => .text s) forall_readable_nil

end RelationSettings

namespace RelationDeclaration

theorem read_toJson {r : RelationDeclaration} (h : r.cardinality.Unreserved) :
    read r.toJson.toDatum = .ok r :=
  Fields.Read.map_read_eq
    (.cons rfl <| .cons (Cardinality.read_toJson h) <| .cons rfl <| .cons rfl <|
      .cons (readOption_ofOption (by rintro s - ⟨⟩) fun s _ => s.read_toJson) .nil)
    (by decide) rfl

theorem unreserved_of_read {d : Datum} {r : RelationDeclaration} (h : read d = .ok r) :
    r.cardinality.Unreserved := by
  obtain ⟨values, hvalues, rfl⟩ := map_eq_ok h
  obtain ⟨d, hcardinality⟩ := exists_read_of_given_required (Fields.given_of_read hvalues).tail.head
  exact Cardinality.unreserved_of_read hcardinality

theorem readable_toJson (r : RelationDeclaration) : r.toJson.Readable (depth + 3) :=
  .object <|
    forall_readable_cons (.text _) <| forall_readable_cons (.text _) <|
    forall_readable_cons (.text _) <| forall_readable_cons (.text _) <|
    forall_readable_cons (readable_ofOption fun s _ => s.readable_toJson) forall_readable_nil

end RelationDeclaration

namespace RelationSet

theorem read_toMembers {s : RelationSet} (h : ∀ r ∈ s.relations, r.cardinality.Unreserved) :
    read (Json.object s.toMembers).toDatum = .ok s :=
  Fields.Read.map_read_eq
    (.cons rfl <| .cons rfl <|
      .cons (readList_ofList fun r hr => RelationDeclaration.read_toJson (h r hr)) .nil)
    (by decide) rfl

theorem unreserved_of_read {d : Datum} {s : RelationSet} (h : read d = .ok s) :
    ∀ r ∈ s.relations, r.cardinality.Unreserved := by
  obtain ⟨values, hvalues, rfl⟩ := map_eq_ok h
  intro r hr
  obtain ⟨d, hrelation⟩ :=
    exists_read_of_mem_given_list (Fields.given_of_read hvalues).tail.tail.head r hr
  exact RelationDeclaration.unreserved_of_read hrelation

theorem readable_toMembers (s : RelationSet) : ∀ m ∈ s.toMembers, m.2.Readable (depth + 4) :=
  forall_readable_cons (.text _) <| forall_readable_cons (.text _) <|
  forall_readable_cons (readable_ofList fun r _ => r.readable_toJson) forall_readable_nil

end RelationSet

end Schemata
