import Schemata.Proofs.Json.Distinct
import Schemata.Proofs.SchemaCodec
/-!
# Canonical texts and checksums

The JSON of a schema says all that the schema says: it is read back as the schema, and the
canonical texts of two schemas are equal only if they differ at most in their summaries. The
checksums of two schemas that differ elsewhere are equal only if their canonical texts are a
collision of the digest.
-/

namespace Schemata

namespace Sha256

/-- Two different messages with one digest. -/
def Collision (message message' : List UInt8) : Prop :=
  message ≠ message' ∧ digest message = digest message'

theorem digitChar_inj {m n : Nat} (hm : m < 16) (hn : n < 16)
    (h : Nat.digitChar m = Nat.digitChar n) : m = n := by
  have hall : ∀ m < 16, ∀ n < 16, Nat.digitChar m = Nat.digitChar n → m = n := by decide
  exact hall m hm n hn h

/-- A number below a power of sixteen is told by so many of its digits. -/
theorem mod_eq_of_digits {m n k : Nat}
    (h : ∀ i < k, (m >>> (4 * i)) % 16 = (n >>> (4 * i)) % 16) : m % 16 ^ k = n % 16 ^ k := by
  induction k with
  | zero => rw [Nat.pow_zero, Nat.mod_one, Nat.mod_one]
  | succ k ih =>
    have hdigit := h k (Nat.lt_succ_self k)
    rw [Nat.shiftRight_eq_div_pow, Nat.shiftRight_eq_div_pow, Nat.pow_mul] at hdigit
    rw [Nat.mod_pow_succ, Nat.mod_pow_succ, ih fun i hi => h i (Nat.lt_succ_of_lt hi)]
    exact congrArg (n % 16 ^ k + 16 ^ k * ·) hdigit

theorem length_hexWord (w : UInt32) : (hexWord w).length = 8 := by
  rw [hexWord, List.length_map, List.length_range]

theorem hexWord_injective : Function.Injective hexWord := by
  intro w w' h
  have hdigits : ∀ i < 8, (w.toNat >>> (4 * i)) % 16 = (w'.toNat >>> (4 * i)) % 16 := by
    intro i hi
    -- The highest digit is written first.
    have hchar := List.map_inj_left.mp h (7 - i) (List.mem_range.mpr (by omega))
    rw [show 7 - (7 - i) = i by omega] at hchar
    exact digitChar_inj (Nat.mod_lt _ (by decide)) (Nat.mod_lt _ (by decide)) hchar
  have hmod := mod_eq_of_digits hdigits
  have hw : w.toNat < 16 ^ 8 := w.toNat_lt
  have hw' : w'.toNat < 16 ^ 8 := w'.toNat_lt
  rw [Nat.mod_eq_of_lt hw, Nat.mod_eq_of_lt hw'] at hmod
  exact UInt32.toNat_inj.mp hmod

theorem flatMap_hexWord_injective : Function.Injective (List.flatMap hexWord) := by
  intro ws ws' h
  induction ws generalizing ws' with
  | nil =>
    cases ws' with
    | nil => rfl
    | cons w' ws' => cases h
  | cons w ws ih =>
    cases ws' with
    | nil => cases h
    | cons w' ws' =>
      rw [List.flatMap_cons, List.flatMap_cons] at h
      have hlength : (hexWord w).length = (hexWord w').length := by
        rw [length_hexWord, length_hexWord]
      obtain ⟨hword, htail⟩ := List.append_inj h hlength
      rw [hexWord_injective hword, ih htail]

theorem toList_loop (bytes : ByteArray) (i : Nat) (acc : List UInt8) :
    ByteArray.toList.loop bytes i acc = acc.reverse ++ bytes.data.toList.drop i := by
  induction i, acc using ByteArray.toList.loop.induct bytes with
  | case1 i acc hi ih =>
    have hlist : i < bytes.data.toList.length := hi
    have hbyte : bytes.get! i = bytes.data.toList[i] := getElem!_pos bytes.data i hi
    rw [ByteArray.toList.loop, if_pos hi, ih, List.drop_eq_getElem_cons hlist, List.reverse_cons,
      List.append_assoc, hbyte]
    rfl
  | case2 i acc hi =>
    have hlist : bytes.data.toList.length ≤ i := Nat.not_lt.mp hi
    rw [ByteArray.toList.loop, if_neg hi, List.drop_of_length_le hlist, List.append_nil]

theorem toList_toUTF8_injective : Function.Injective fun s : String => s.toUTF8.toList := by
  intro s s' h
  change s.toUTF8.toList = s'.toUTF8.toList at h
  rw [ByteArray.toList, ByteArray.toList, toList_loop, toList_loop] at h
  exact String.toByteArray_inj.mp (ByteArray.ext (Array.toList_inj.mp h))

/-- Two texts with one digest are the same, or their bytes are a collision. -/
theorem hexDigest_eq_iff {s s' : String} :
    hexDigest s = hexDigest s' ↔ s = s' ∨ Collision s.toUTF8.toList s'.toUTF8.toList := by
  have hdigest : hexDigest s = hexDigest s' ↔ digest s.toUTF8.toList = digest s'.toUTF8.toList :=
    ⟨fun h => flatMap_hexWord_injective (String.ofList_injective h),
      fun h => by rw [hexDigest, hexDigest, h]⟩
  rw [hdigest]
  constructor
  · intro h
    by_cases hs : s = s'
    · exact .inl hs
    · exact .inr ⟨fun hbytes => hs (toList_toUTF8_injective hbytes), h⟩
  · rintro (rfl | ⟨-, h⟩)
    · rfl
    · exact h

end Sha256

theorem Json.ofList_injective {α : Type} {encode : α → Json} {read : Datum.Reader α}
    (h : ∀ a, read (encode a).toDatum = .ok a) : Function.Injective (Json.ofList encode) := by
  have hencode : Function.Injective encode := by
    intro a b hab
    have ha := h a
    rw [hab, h b] at ha
    exact (Except.ok.inj ha).symm
  exact fun as bs has => List.map_injective_iff.mpr hencode (Json.array.inj has)

namespace Schema

/-- The schemas differ at most in their summaries. -/
structure SameContent (s s' : Schema) : Prop where
  models : s.models = s'.models
  enums : s.enums = s'.enums
  relations : s.relations = s'.relations
  warnings : s.warnings = s'.warnings

theorem ofText_compact_toJson {s : Schema} (h : s.DefaultsReadBack) :
    Json.ofText s.toJson.compact = .ok s.toJson :=
  have hreadable : s.toJson.Readable (121 + 6) := readable_toJson h
  Json.ofText_compact hreadable

theorem sameContent_of_canonicalMembers {s s' : Schema}
    (h : s.canonicalMembers = s'.canonicalMembers) : s.SameContent s' := by
  simp only [canonicalMembers, List.cons.injEq, Prod.mk.injEq, true_and, and_true] at h
  obtain ⟨hmodels, henums, hrelations, hwarnings⟩ := h
  exact {
    models := Json.ofList_injective Model.read_toJson hmodels
    enums := Json.ofList_injective EnumType.read_toJson henums
    relations := Json.ofList_injective Relation.read_toJson hrelations
    warnings := Json.ofList_injective Warning.read_toJson hwarnings }

theorem canonicalText_eq_iff {s s' : Schema} :
    s.canonicalText = s'.canonicalText ↔ s.SameContent s' := by
  constructor
  · intro h
    exact sameContent_of_canonicalMembers (Json.object.inj (Json.compact_injective h))
  · intro h
    rw [canonicalText, canonicalText, canonicalMembers, canonicalMembers, h.models, h.enums,
      h.relations, h.warnings]

/-- The canonical form of a schema is lossless: what is written is read back, and what differs
anywhere but in the summary is written differently, so that equal checksums of schemas with
different contents come from a collision of the digest. -/
theorem canonical_lossless :
    (∀ s : Schema, s.DefaultsReadBack →
      ∃ j, Json.ofText s.toJson.compact = .ok j ∧ read j.toDatum = .ok s) ∧
    (∀ s s' : Schema, s.canonicalText = s'.canonicalText ↔ s.SameContent s') ∧
    (∀ x y : Binary64,
      NumberLayout.canonical.render x = NumberLayout.canonical.render y ↔ x = y) ∧
    ∀ s s' : Schema, s.checksum = s'.checksum ↔ s.SameContent s' ∨
      Sha256.Collision s.canonicalText.toUTF8.toList s'.canonicalText.toUTF8.toList := by
  refine ⟨fun s h => ⟨s.toJson, ofText_compact_toJson h, s.read_toJson⟩,
    fun s s' => canonicalText_eq_iff, fun x y => Binary64.render_injective.eq_iff, fun s s' => ?_⟩
  rw [checksum, checksum, Sha256.hexDigest_eq_iff, canonicalText_eq_iff]

/-- A gauge that leads to its stations, with a default for its level. -/
def gauge (level : DefaultValue) (summary : String) : Schema where
  models := [{
    Model.ofName "gauge" "gauges" with
    columns := [{
      Column.ofType "level" "level" .decimal with
      hasDefault := true, defaultValue := some level }],
    relations := [
      .one {
        declaredName := "station", fieldName := "station", relationName := none,
        sourceModel := "gauge", referenceModel := "station", sourceFields := [],
        referenceFields := [], isOptional := false, direction := .out },
      .many ⟨"readings", "gauge", "reading", .out⟩] }]
  enums := [⟨"unit", "unit_kind", ["m\n", "\"ft\""]⟩]
  relations := []
  warnings := []
  summary := summary

/-- The defaults 1.0, 1 and "1" are told apart, and the summary does not count. -/
theorem canonical_lossless_gauge :
    let level : Schema := gauge (.float ⟨false, 2 ^ 52, 1022, by decide⟩) ""
    level.DefaultsReadBack ∧
      (∃ j, Json.ofText level.toJson.compact = .ok j ∧ read j.toDatum = .ok level) ∧
      level.canonicalText ≠ (gauge (.int 1) "").canonicalText ∧
      (gauge (.int 1) "").canonicalText ≠ (gauge (.text "1") "").canonicalText ∧
      (gauge (.int 1) "").checksum = (gauge (.int 1) "One gauge").checksum := by
  intro level
  obtain ⟨hread, htext, -, hchecksum⟩ := canonical_lossless
  have hdefaults : level.DefaultsReadBack := by decide +kernel
  refine ⟨hdefaults, hread level hdefaults, ?_, ?_, ?_⟩
  · intro h
    have hmodels := ((htext _ _).mp h).models
    revert hmodels
    decide +kernel
  · intro h
    have hmodels := ((htext _ _).mp h).models
    revert hmodels
    decide +kernel
  · exact (hchecksum _ _).mpr (.inl ⟨rfl, rfl, rfl, rfl⟩)

end Schema

end Schemata
