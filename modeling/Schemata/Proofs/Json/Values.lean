import Schemata.Proofs.Json.Floats
import Schemata.Proofs.Json.Strings
/-!
# Values inside texts

The compact text of a value is read as that value, as long as its numbers read back and it does
not nest too deep. What follows it in a text does not matter, as long as no number goes on there.
-/

namespace Schemata.Json

/-- The values that nest at most so deep and whose numbers read back. -/
inductive Readable : Nat → Json → Prop where
  | null {depth : Nat} : Readable depth .null
  | bool {depth : Nat} (value : Bool) : Readable depth (.bool value)
  | int {depth : Nat} {value : Int} (low : Int64.minValue.toInt ≤ value)
      (high : value < UInt64.size) : Readable depth (.int value)
  | float {depth : Nat} {value : Binary64} (back : ReadsBack value) : Readable depth (.float value)
  | text {depth : Nat} (value : String) : Readable depth (.text value)
  | array {depth : Nat} {items : List Json} (all : ∀ j ∈ items, Readable depth j) :
      Readable (depth + 1) (.array items)
  | object {depth : Nat} {members : List (String × Json)}
      (all : ∀ m ∈ members, Readable depth m.2) : Readable (depth + 1) (.object members)

/-- The compact text is read as the value, whatever follows it. -/
def ReadsAs (depth : Nat) (j : Json) : Prop :=
  ∀ (fuel : Nat) (rest : List Char), j.compactChars.length ≤ fuel → EndsNumber rest →
    readValueWith .kept fuel depth (j.compactChars ++ rest) = .ok (j, rest)

variable {depth fuel : Nat} {j : Json} {c : Char} {cs rest : List Char}

theorem skipSpace_cons (hc : isSpace c = false) (cs : List Char) :
    skipSpace (c :: cs) = c :: cs := by
  rw [skipSpace, List.dropWhile_cons, hc]
  rfl

section Scalars

/-- The first characters of values without parts. -/
def StartsScalar (c : Char) : Prop :=
  isSpace c = false ∧ c ≠ '[' ∧ c ≠ '\x7b'

theorem startsScalar_of_number (hc : c = '-' ∨ isDigit c = true) : StartsScalar c := by
  obtain rfl | hdigit := hc
  · exact ⟨by decide, by decide, by decide⟩
  · refine ⟨?_, ?_, ?_⟩
    · cases hspace : isSpace c with
      | false => rfl
      | true =>
        simp only [isSpace, Bool.or_eq_true, decide_eq_true_iff] at hspace
        obtain ((rfl | rfl) | rfl) | rfl := hspace <;> cases hdigit
    all_goals
      rintro rfl
      cases hdigit

theorem readScalar_of_number (hc : c = '-' ∨ isDigit c = true) (cs : List Char) :
    readScalar .kept (c :: cs) = readNumber .kept (c :: cs) := by
  unfold readScalar
  split
  case h_6 heq =>
    obtain ⟨rfl, rfl⟩ := heq
    rw [if_pos hc]
  all_goals
    simp_all [isDigit]

theorem readsAs_of_scalar (htext : j.compactChars = c :: cs) (hc : StartsScalar c)
    (hread : ∀ rest, EndsNumber rest → readScalar .kept (c :: cs ++ rest) = .ok (j, rest)) :
    ReadsAs depth j := by
  intro fuel rest hfuel hrest
  obtain ⟨hspace, hbracket, hbrace⟩ := hc
  rw [htext] at hfuel ⊢
  cases fuel with
  | zero => cases hfuel
  | succ fuel =>
    rw [readValueWith, List.cons_append, skipSpace_cons hspace]
    split
    · next heq => exact absurd (List.cons.inj heq).1 hbracket
    · next heq => exact absurd (List.cons.inj heq).1 hbrace
    · exact hread rest hrest

theorem readsAs_of_number {n : Numeral} (hn : n.WellFormed) (htext : j.compactChars = n.chars)
    (hvalue : n.toJson? = some j) : ReadsAs depth j := by
  obtain ⟨c, cs, hchars, hc⟩ := exists_cons_chars hn
  refine readsAs_of_scalar (htext.trans hchars) (startsScalar_of_number hc) fun rest hrest => ?_
  rw [List.cons_append, readScalar_of_number hc, ← List.cons_append, ← hchars]
  exact (readNumber_chars_iff hn hrest).mpr hvalue

theorem readsAs_text (s : String) : ReadsAs depth (.text s) := by
  refine readsAs_of_scalar rfl ⟨by decide, by decide, by decide⟩ fun rest _ => ?_
  show (readString .kept (stringBody s.toList ++ rest)).map _ = _
  rw [readString_stringBody]
  rfl

end Scalars

section Parts

theorem itemsTail_cons_append (item : Json) (items : List Json) (rest : List Char) :
    itemsTail (item :: items) ++ rest =
      ',' :: (item.compactChars ++ (itemsTail items ++ rest)) := by
  rw [itemsTail, List.cons_append, List.append_assoc]

theorem membersTail_cons_append (name : String) (value : Json) (members : List (String × Json))
    (rest : List Char) :
    membersTail ((name, value) :: members) ++ rest =
      ',' :: (stringText name ++ ':' :: (value.compactChars ++ (membersTail members ++ rest))) := by
  rw [membersTail, List.cons_append, List.append_assoc, List.cons_append, List.append_assoc]

theorem endsNumber_itemsTail (items : List Json) (rest : List Char) :
    EndsNumber (itemsTail items ++ rest) := by
  cases items <;> exact endsNumber_cons (by decide) (by decide) _

theorem endsNumber_membersTail (members : List (String × Json)) (rest : List Char) :
    EndsNumber (membersTail members ++ rest) := by
  cases members <;> exact endsNumber_cons (by decide) (by decide) _

theorem readKey_stringText (name : String) (rest : List Char) :
    readKey .kept (stringText name ++ rest) = .ok (name, rest) :=
  readString_stringBody name rest

/-- A name and the colon behind it. -/
theorem readName_stringText (name : String) (rest : List Char) :
    readName .kept (stringText name ++ ':' :: rest) = .ok (name, rest) := by
  rw [readName, readKey_stringText]
  rfl

theorem readItemsTail_itemsTail {items : List Json} (hitems : ∀ j ∈ items, ReadsAs depth j)
    (hfuel : (itemsTail items).length ≤ fuel) (rest : List Char) :
    readItemsTail .kept fuel depth (itemsTail items ++ rest) = .ok (items, rest) := by
  induction items generalizing fuel with
  | nil =>
    cases fuel with
    | zero => cases hfuel
    | succ fuel => rfl
  | cons item items ih =>
    cases fuel with
    | zero => cases hfuel
    | succ fuel =>
      rw [itemsTail, List.length_cons, List.length_append] at hfuel
      rw [itemsTail_cons_append]
      show (readValueWith .kept fuel depth (item.compactChars ++ (itemsTail items ++ rest)) >>= _) =
        _
      rw [hitems item List.mem_cons_self fuel _ (by omega) (endsNumber_itemsTail items rest)]
      show (readItemsTail .kept fuel depth (itemsTail items ++ rest) >>= _) = _
      rw [ih (fun j hj => hitems j (List.mem_cons_of_mem item hj)) (by omega)]
      rfl

theorem readMembersTail_membersTail {members : List (String × Json)}
    (hmembers : ∀ m ∈ members, ReadsAs depth m.2) (hfuel : (membersTail members).length ≤ fuel)
    (rest : List Char) :
    readMembersTail .kept fuel depth (membersTail members ++ rest) = .ok (members, rest) := by
  induction members generalizing fuel with
  | nil =>
    cases fuel with
    | zero => cases hfuel
    | succ fuel => rfl
  | cons m members ih =>
    obtain ⟨name, value⟩ := m
    cases fuel with
    | zero => cases hfuel
    | succ fuel =>
      simp only [membersTail, List.length_cons, List.length_append] at hfuel
      rw [membersTail_cons_append]
      have hvalue : ReadsAs depth value := hmembers (name, value) List.mem_cons_self
      show (readName .kept
        (stringText name ++ ':' :: (value.compactChars ++ (membersTail members ++ rest))) >>= _) = _
      rw [readName_stringText]
      show (readValueWith .kept fuel depth
        (value.compactChars ++ (membersTail members ++ rest)) >>= _) = _
      rw [hvalue fuel _ (by omega) (endsNumber_membersTail members rest)]
      show (readMembersTail .kept fuel depth (membersTail members ++ rest) >>= _) = _
      rw [ih (fun m hm => hmembers m (List.mem_cons_of_mem _ hm)) (by omega)]
      rfl

/-- No value starts with the end of an array. -/
theorem readValueWith_of_bracket (h : skipSpace cs = ']' :: rest) :
    readValueWith .kept fuel depth cs = .error .malformed := by
  cases fuel with
  | zero => rfl
  | succ fuel =>
    rw [readValueWith, h]
    rfl

/-- The reader looks for the end of an empty array first, and then for an item. -/
theorem readValueWith_array (h : ∀ tail, skipSpace cs ≠ ']' :: tail) :
    readValueWith .kept (fuel + 1) (depth + 1) ('[' :: cs) = do
      let (item, tail) ← readValueWith .kept fuel depth cs
      let (items, tail) ← readItemsTail .kept fuel depth tail
      return (.array (item :: items), tail) := by
  rw [readValueWith, skipSpace_cons (by decide)]
  split
  · next heq =>
    obtain ⟨-, rfl⟩ := List.cons.inj heq
    rw [if_neg fun hdeep => Nat.succ_ne_zero depth hdeep.2]
    split
    · next heq => exact absurd heq (h _)
    · rfl
  · next heq => cases (List.cons.inj heq).1
  · next hbracket _ => exact absurd rfl (hbracket cs)

theorem readsAs_array {items : List Json} (hitems : ∀ j ∈ items, ReadsAs depth j) :
    ReadsAs (depth + 1) (.array items) := by
  intro fuel rest hfuel _
  cases fuel with
  | zero => cases items <;> cases hfuel
  | succ fuel =>
    cases items with
    | nil => rfl
    | cons item items =>
      simp only [compactChars, List.length_cons, List.length_append] at hfuel
      have hitem := hitems item List.mem_cons_self fuel (itemsTail items ++ rest) (by omega)
        (endsNumber_itemsTail items rest)
      have hbracket (tail : List Char) :
          skipSpace (item.compactChars ++ (itemsTail items ++ rest)) ≠ ']' :: tail := by
        intro htail
        rw [readValueWith_of_bracket htail] at hitem
        cases hitem
      rw [compactChars, List.cons_append, List.append_assoc, readValueWith_array hbracket, hitem]
      show (readItemsTail .kept fuel depth (itemsTail items ++ rest) >>= _) = _
      rw [readItemsTail_itemsTail (fun j hj => hitems j (List.mem_cons_of_mem item hj)) (by omega)]
      rfl

theorem readsAs_object {members : List (String × Json)}
    (hmembers : ∀ m ∈ members, ReadsAs depth m.2) : ReadsAs (depth + 1) (.object members) := by
  intro fuel rest hfuel _
  cases fuel with
  | zero => cases members <;> cases hfuel
  | succ fuel =>
    cases members with
    | nil => rfl
    | cons m members =>
      obtain ⟨name, value⟩ := m
      simp only [compactChars, List.length_cons, List.length_append] at hfuel
      rw [compactChars, List.cons_append, List.append_assoc, List.cons_append, List.append_assoc]
      have hvalue : ReadsAs depth value := hmembers (name, value) List.mem_cons_self
      show (readName .kept
        (stringText name ++ ':' :: (value.compactChars ++ (membersTail members ++ rest))) >>= _) = _
      rw [readName_stringText]
      show (readValueWith .kept fuel depth
        (value.compactChars ++ (membersTail members ++ rest)) >>= _) = _
      rw [hvalue fuel _ (by omega) (endsNumber_membersTail members rest)]
      show (readMembersTail .kept fuel depth (membersTail members ++ rest) >>= _) = _
      rw [readMembersTail_membersTail (fun m hm => hmembers m (List.mem_cons_of_mem _ hm))
        (by omega)]
      rfl

end Parts

/-- A value that nests not too deep and whose numbers read back is read from its compact text. -/
theorem Readable.readsAs (h : Readable depth j) : ReadsAs depth j := by
  induction h with
  | null => exact readsAs_of_scalar rfl ⟨by decide, by decide, by decide⟩ fun _ _ => rfl
  | bool value =>
    cases value <;>
      exact readsAs_of_scalar rfl ⟨by decide, by decide, by decide⟩ fun _ _ => rfl
  | @int depth n low high =>
    exact readsAs_of_number (Numeral.wellFormed_ofInt n) (Numeral.chars_ofInt n).symm
      (Numeral.toJson?_ofInt low high)
  | @float depth x back =>
    exact readsAs_of_number x.wellFormed_numeral x.chars_numeral.symm (readsBack_iff.mp back)
  | text value => exact readsAs_text value
  | array _ ih => exact readsAs_array ih
  | object _ ih => exact readsAs_object ih

theorem readValue_compactChars (h : Readable depth j) (hrest : EndsNumber rest) :
    readValue .kept depth (j.compactChars ++ rest) = .ok (j, rest) := by
  refine h.readsAs _ rest ?_ hrest
  rw [List.length_append]
  omega

/-- The compact text of a value is the text of that value. -/
theorem ofText_compact (h : Readable maxDepth j) : ofText j.compact = .ok j := by
  have hread := readValue_compactChars h endsNumber_nil
  rw [ofText, compact, String.toList_ofList, ← List.append_nil j.compactChars, hread]
  rfl

section Encoded

variable {α : Type} {encode : α → Json}

theorem readable_ofOption {o : Option α} (h : ∀ a ∈ o, Readable depth (encode a)) :
    Readable depth (ofOption encode o) := by
  cases o with
  | none => exact .null
  | some a => exact h a rfl

theorem readable_ofList {items : List α} (h : ∀ a ∈ items, Readable depth (encode a)) :
    Readable (depth + 1) (ofList encode items) := by
  refine .array fun j hj => ?_
  obtain ⟨a, ha, rfl⟩ := List.mem_map.mp hj
  exact h a ha

theorem forall_readable_nil : ∀ m ∈ ([] : List (String × Json)), Readable depth m.2 := by
  rintro m ⟨⟩

theorem forall_readable_cons {name : String} {members : List (String × Json)}
    (head : Readable depth j) (tail : ∀ m ∈ members, Readable depth m.2) :
    ∀ m ∈ (name, j) :: members, Readable depth m.2 :=
  List.forall_mem_cons.mpr ⟨head, tail⟩

end Encoded

end Schemata.Json
