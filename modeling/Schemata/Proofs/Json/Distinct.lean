import Schemata.Proofs.Json.Values
/-!
# Different values have different texts

No two values have one compact text, whether their numbers read back or not: the first character
tells what sort of value it is, each part ends where no longer text of the same sort could end, and
the parts of a number tell numbers apart, whole ones from floating-point ones too.
-/

namespace Schemata

theorem Json.Numeral.canonical_not_whole (negative : Bool) (digits : List Char) (point : Int) :
    (Json.Numeral.canonical negative digits point).fraction ≠ none ∨
      (Json.Numeral.canonical negative digits point).exponent ≠ none := by
  unfold canonical placed scientific
  split_ifs <;> simp

/-- The text of a floating-point number has a point or an exponent. -/
theorem Binary64.numeral_not_whole (x : Binary64) :
    x.numeral.fraction ≠ none ∨ x.numeral.exponent ≠ none := by
  by_cases hzero : x.isZero = true
  · rw [numeral_of_isZero hzero]
    exact .inl (Option.some_ne_none _)
  · obtain ⟨digits, point, hnumeral, -, -⟩ := numeral_of_not_isZero hzero
    rw [hnumeral]
    exact Json.Numeral.canonical_not_whole x.negative digits point

namespace Json

variable {j j' : Json} {rest rest' : List Char}

section Numbers

theorem Numeral.ofInt_injective : Function.Injective Numeral.ofInt := by
  intro n n' h
  have hsign : decide (n < 0) = decide (n' < 0) := congrArg Numeral.negative h
  have hdigits : Nat.toDigits 10 n.natAbs = Nat.toDigits 10 n'.natAbs := congrArg Numeral.whole h
  have habs : n.natAbs = n'.natAbs := by
    rw [← ofDigits_toDigits n.natAbs, hdigits, ofDigits_toDigits]
  have hiff : n < 0 ↔ n' < 0 := decide_eq_decide.mp hsign
  omega

/-- The parts of the text of a number, for a value that is one. -/
def numeral? : Json → Option Numeral
  | .int n => some (.ofInt n)
  | .float x => some x.numeral
  | _ => none

theorem chars_of_numeral? {n : Numeral} (h : j.numeral? = some n) :
    n.WellFormed ∧ j.compactChars = n.chars := by
  cases j with
  | int value =>
    cases h
    exact ⟨Numeral.wellFormed_ofInt value, (Numeral.chars_ofInt value).symm⟩
  | float x =>
    cases h
    exact ⟨x.wellFormed_numeral, x.chars_numeral.symm⟩
  | _ => cases h

theorem ofInt_ne_numeral (n : Int) (x : Binary64) : Numeral.ofInt n ≠ x.numeral := by
  intro h
  obtain hfraction | hexponent := x.numeral_not_whole
  · exact hfraction (congrArg Numeral.fraction h).symm
  · exact hexponent (congrArg Numeral.exponent h).symm

/-- The parts of its text tell a number apart. -/
theorem eq_of_numeral? {n : Numeral} (h : j.numeral? = some n) (h' : j'.numeral? = some n) :
    j = j' := by
  cases j with
  | int value =>
    cases h
    cases j' with
    | int value' => rw [Numeral.ofInt_injective (Option.some.inj h').symm]
    | float x => exact absurd (Option.some.inj h').symm (ofInt_ne_numeral value x)
    | _ => cases h'
  | float x =>
    cases h
    cases j' with
    | int value => exact absurd (Option.some.inj h') (ofInt_ne_numeral value x)
    | float y => rw [Binary64.numeral_injective (Option.some.inj h').symm]
    | _ => cases h'
  | _ => cases h

theorem number_append_inj {n n' : Numeral} (hn : j.numeral? = some n) (hn' : j'.numeral? = some n')
    (hrest : EndsNumber rest) (hrest' : EndsNumber rest')
    (h : j.compactChars ++ rest = j'.compactChars ++ rest') : j = j' ∧ rest = rest' := by
  obtain ⟨hwell, htext⟩ := chars_of_numeral? hn
  obtain ⟨hwell', htext'⟩ := chars_of_numeral? hn'
  -- Reading the one text as either number takes off the same parts and leaves the same rest.
  have hread : readNumeral .kept (n.chars ++ rest) = .ok (n, rest) := readNumeral_chars hwell hrest
  have hread' : readNumeral .kept (n'.chars ++ rest') = .ok (n', rest') :=
    readNumeral_chars hwell' hrest'
  rw [← htext, h, htext', hread'] at hread
  obtain ⟨rfl, rfl⟩ : n' = n ∧ rest' = rest := by
    simpa using hread
  exact ⟨eq_of_numeral? hn hn', rfl⟩

end Numbers

section Shapes

/-- What the first character of a text tells. -/
inductive Shape where
  | null
  | bool (value : Bool)
  | number
  | text
  | array
  | object

def shape : Json → Shape
  | .null => .null
  | .bool value => .bool value
  | .int _ => .number
  | .float _ => .number
  | .text _ => .text
  | .array _ => .array
  | .object _ => .object

def shapeOf? (c : Char) : Option Shape :=
  if c = '-' ∨ isDigit c = true then some .number
  else match c with
    | 'n' => some .null
    | 't' => some (.bool true)
    | 'f' => some (.bool false)
    | '"' => some .text
    | '[' => some .array
    | '\x7b' => some .object
    | _ => none

theorem exists_cons_compactChars (j : Json) :
    ∃ c cs, j.compactChars = c :: cs ∧ shapeOf? c = some j.shape := by
  have hnumber {n : Numeral} (hn : j.numeral? = some n) (hshape : j.shape = .number) :
      ∃ c cs, j.compactChars = c :: cs ∧ shapeOf? c = some j.shape := by
    obtain ⟨hwell, htext⟩ := chars_of_numeral? hn
    obtain ⟨c, cs, hchars, hc⟩ := exists_cons_chars hwell
    exact ⟨c, cs, htext.trans hchars, hshape ▸ if_pos hc⟩
  cases j with
  | null => exact ⟨'n', _, rfl, rfl⟩
  | bool value => cases value <;> exact ⟨_, _, rfl, rfl⟩
  | int n => exact hnumber rfl rfl
  | float x => exact hnumber rfl rfl
  | text s => exact ⟨'"', _, rfl, rfl⟩
  | array items => cases items <;> exact ⟨'[', _, rfl, rfl⟩
  | object members => cases members <;> exact ⟨'\x7b', _, rfl, rfl⟩

theorem shape_eq_of_append_eq (h : j.compactChars ++ rest = j'.compactChars ++ rest') :
    j.shape = j'.shape := by
  obtain ⟨c, cs, htext, hc⟩ := exists_cons_compactChars j
  obtain ⟨c', cs', htext', hc'⟩ := exists_cons_compactChars j'
  rw [htext, htext'] at h
  rw [(List.cons.inj h).1, hc'] at hc
  exact (Option.some.inj hc).symm

theorem exists_numeral_of_shape (h : j.shape = .number) : ∃ n, j.numeral? = some n := by
  cases j with
  | int n => exact ⟨_, rfl⟩
  | float x => exact ⟨_, rfl⟩
  | _ => cases h

/-- A text without items ends where an item would start. -/
theorem bracket_ne_compactChars (j : Json) (cs : List Char) :
    ']' :: cs ≠ j.compactChars ++ rest := by
  intro h
  obtain ⟨c, cs', htext, hc⟩ := exists_cons_compactChars j
  rw [htext] at h
  rw [← (List.cons.inj h).1] at hc
  cases hc

end Shapes

/-- The compact text of the value is not the start of one that goes on with another value. -/
def TellsApart (j : Json) : Prop :=
  ∀ (j' : Json) (rest rest' : List Char), EndsNumber rest → EndsNumber rest' →
    j.compactChars ++ rest = j'.compactChars ++ rest' → j = j' ∧ rest = rest'

theorem tellsApart_number (hshape : j.shape = .number) : j.TellsApart := by
  intro j' rest rest' hrest hrest' h
  obtain ⟨n, hn⟩ := exists_numeral_of_shape hshape
  obtain ⟨n', hn'⟩ := exists_numeral_of_shape ((shape_eq_of_append_eq h).symm.trans hshape)
  exact number_append_inj hn hn' hrest hrest' h

section Parts

theorem stringText_append_inj {s s' : String} (h : stringText s ++ rest = stringText s' ++ rest') :
    s = s' ∧ rest = rest' := by
  have hread := readString_stringBody s rest
  have htail : stringBody s.toList ++ rest = stringBody s'.toList ++ rest' := (List.cons.inj h).2
  rw [htail, readString_stringBody] at hread
  obtain ⟨rfl, rfl⟩ : s' = s ∧ rest' = rest := by
    simpa using hread
  exact ⟨rfl, rfl⟩

theorem itemsTail_append_inj {items items' : List Json} (hitems : ∀ j ∈ items, j.TellsApart)
    (h : itemsTail items ++ rest = itemsTail items' ++ rest') : items = items' ∧ rest = rest' := by
  induction items generalizing items' with
  | nil =>
    cases items' with
    | nil => exact ⟨rfl, (List.cons.inj h).2⟩
    | cons item' items' => cases (List.cons.inj h).1
  | cons item items ih =>
    cases items' with
    | nil => cases (List.cons.inj h).1
    | cons item' items' =>
      rw [itemsTail_cons_append, itemsTail_cons_append] at h
      obtain ⟨rfl, htail⟩ := hitems item List.mem_cons_self item' _ _
        (endsNumber_itemsTail items rest) (endsNumber_itemsTail items' rest') (List.cons.inj h).2
      obtain ⟨rfl, hrest⟩ := ih (fun j hj => hitems j (List.mem_cons_of_mem item hj)) htail
      exact ⟨rfl, hrest⟩

/-- A name, the value behind it and the members that follow. -/
theorem member_append_inj {name name' : String} {value value' : Json}
    {members members' : List (String × Json)} (hm : value.TellsApart)
    (h : stringText name ++ ':' :: (value.compactChars ++ (membersTail members ++ rest)) =
      stringText name' ++ ':' :: (value'.compactChars ++ (membersTail members' ++ rest'))) :
    (name, value) = (name', value') ∧
      membersTail members ++ rest = membersTail members' ++ rest' := by
  obtain ⟨rfl, hvalue⟩ := stringText_append_inj h
  obtain ⟨rfl, htail⟩ := hm value' _ _ (endsNumber_membersTail members rest)
    (endsNumber_membersTail members' rest') (List.cons.inj hvalue).2
  exact ⟨rfl, htail⟩

theorem membersTail_append_inj {members members' : List (String × Json)}
    (hmembers : ∀ m ∈ members, m.2.TellsApart)
    (h : membersTail members ++ rest = membersTail members' ++ rest') :
    members = members' ∧ rest = rest' := by
  induction members generalizing members' with
  | nil =>
    cases members' with
    | nil => exact ⟨rfl, (List.cons.inj h).2⟩
    | cons m' members' => cases (List.cons.inj h).1
  | cons m members ih =>
    obtain ⟨name, value⟩ := m
    cases members' with
    | nil => cases (List.cons.inj h).1
    | cons m' members' =>
      obtain ⟨name', value'⟩ := m'
      have hvalue : value.TellsApart := hmembers (name, value) List.mem_cons_self
      rw [membersTail_cons_append, membersTail_cons_append] at h
      obtain ⟨hm, htail⟩ := member_append_inj hvalue (List.cons.inj h).2
      obtain ⟨rfl, hrest⟩ := ih (fun m hm => hmembers m (List.mem_cons_of_mem _ hm)) htail
      rw [hm]
      exact ⟨rfl, hrest⟩

theorem array_cons_append (item : Json) (items : List Json) (rest : List Char) :
    (Json.array (item :: items)).compactChars ++ rest =
      '[' :: (item.compactChars ++ (itemsTail items ++ rest)) := by
  rw [compactChars, List.cons_append, List.append_assoc]

theorem tellsApart_array {items : List Json} (hitems : ∀ j ∈ items, j.TellsApart) :
    (Json.array items).TellsApart := by
  intro j' rest rest' _ _ h
  have hshape := shape_eq_of_append_eq h
  cases j' with
  | array items' =>
    cases items with
    | nil =>
      cases items' with
      | nil => exact ⟨rfl, List.append_cancel_left h⟩
      | cons item' items' =>
        -- The bracket that ends the one array stands where an item of the other starts.
        rw [array_cons_append] at h
        exact absurd (List.cons.inj h).2 (bracket_ne_compactChars item' rest)
    | cons item items =>
      cases items' with
      | nil =>
        rw [array_cons_append] at h
        exact absurd (List.cons.inj h).2.symm (bracket_ne_compactChars item rest')
      | cons item' items' =>
        -- Behind a comma the items are the tail of an array.
        have htail : itemsTail (item :: items) ++ rest = itemsTail (item' :: items') ++ rest' := by
          rw [array_cons_append, array_cons_append] at h
          rw [itemsTail_cons_append, itemsTail_cons_append, (List.cons.inj h).2]
        obtain ⟨hitem, hrest⟩ := itemsTail_append_inj hitems htail
        exact ⟨congrArg Json.array hitem, hrest⟩
  | _ => cases hshape

theorem tellsApart_object {members : List (String × Json)}
    (hmembers : ∀ m ∈ members, m.2.TellsApart) : (Json.object members).TellsApart := by
  intro j' rest rest' _ _ h
  have hshape := shape_eq_of_append_eq h
  cases j' with
  | object members' =>
    cases members with
    | nil =>
      cases members' with
      | nil => exact ⟨rfl, List.append_cancel_left h⟩
      | cons m' members' => cases (List.cons.inj (List.cons.inj h).2).1
    | cons m members =>
      cases members' with
      | nil => cases (List.cons.inj (List.cons.inj h).2).1
      | cons m' members' =>
        have htail : membersTail (m :: members) ++ rest = membersTail (m' :: members') ++ rest' :=
          congrArg (',' :: ·) (List.cons.inj h).2
        obtain ⟨hmember, hrest⟩ := membersTail_append_inj hmembers htail
        exact ⟨congrArg Json.object hmember, hrest⟩
  | _ => cases hshape

end Parts

/-- No compact text is the text of two values. -/
theorem tellsApart (j : Json) : j.TellsApart := by
  match j with
  | .null =>
    intro j' rest rest' _ _ h
    have hshape := shape_eq_of_append_eq h
    cases j' with
    | null => exact ⟨rfl, List.append_cancel_left h⟩
    | _ => cases hshape
  | .bool value =>
    intro j' rest rest' _ _ h
    have hshape := shape_eq_of_append_eq h
    cases j' with
    | bool value' =>
      cases hshape
      exact ⟨rfl, List.append_cancel_left h⟩
    | _ => cases hshape
  | .int n => exact tellsApart_number rfl
  | .float x => exact tellsApart_number rfl
  | .text s =>
    intro j' rest rest' _ _ h
    have hshape := shape_eq_of_append_eq h
    cases j' with
    | text s' =>
      obtain ⟨rfl, hrest⟩ := stringText_append_inj h
      exact ⟨rfl, hrest⟩
    | _ => cases hshape
  | .array items => exact tellsApart_array fun item _ => tellsApart item
  | .object members =>
    refine tellsApart_object fun m hm => ?_
    have hsize : sizeOf m < sizeOf members := List.sizeOf_lt_of_mem hm
    have hvalue : sizeOf m = 1 + sizeOf m.1 + sizeOf m.2 := rfl
    exact tellsApart m.2
termination_by sizeOf j

theorem compact_injective : Function.Injective compact := by
  intro j j' h
  have hchars : j.compactChars ++ [] = j'.compactChars ++ [] := by
    rw [List.append_nil, List.append_nil]
    exact String.ofList_injective h
  exact (tellsApart j j' [] [] endsNumber_nil endsNumber_nil hchars).1

end Json

end Schemata
