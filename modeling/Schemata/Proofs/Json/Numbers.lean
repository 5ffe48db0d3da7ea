import Mathlib.Data.List.TakeDrop
import Mathlib.Data.List.TakeWhile
import Schemata.Json.Reader
import Schemata.Proofs.FirstFault
import Schemata.Proofs.Runs
/-!
# Numbers inside texts

A number that is written as the grammar has it is read part by part, whether it ends the text or
something follows that no number goes on with. Whole numbers are read back as they are written.
-/

namespace Schemata.Json

variable {care : Care} {rest : List Char}

section Digits

/-- Some digits and nothing else. -/
def IsDigits (cs : List Char) : Prop := cs ≠ [] ∧ ∀ c ∈ cs, isDigit c = true

theorem isDigit_eq (c : Char) : isDigit c = c.isDigit := by
  simp [isDigit, Char.isDigit, Char.le_def]

theorem isDigits_zero : IsDigits ['0'] :=
  ⟨List.cons_ne_nil _ _, fun _ hc => (List.mem_singleton.mp hc).symm ▸ rfl⟩

theorem isDigits_toDigits (n : Nat) : IsDigits (Nat.toDigits 10 n) :=
  ⟨Nat.toDigits_ne_nil, fun c hc =>
    (isDigit_eq c).trans (Nat.isDigit_of_mem_toDigits (by decide) (by decide) hc)⟩

/-- The digits of a number write it. -/
@[simp]
theorem ofDigits_toDigits (n : Nat) : ofDigits (Nat.toDigits 10 n) = n :=
  Nat.ofDigitChars_eq_foldl.symm.trans Nat.ofDigitChars_ten_toDigits

/-- The digits of a number start with a zero only if it is zero. -/
theorem head?_toDigits_ne_zero {n : Nat} (hn : n ≠ 0) : (Nat.toDigits 10 n).head? ≠ some '0' := by
  induction n using Nat.strongRecOn with
  | ind n ih =>
    rw [Nat.toDigits_eq_if (by decide)]
    split
    · next hlt =>
      have hchar : ∀ d < 10, d ≠ 0 → [Nat.digitChar d].head? ≠ some '0' := by decide
      exact hchar n hlt hn
    · next hge =>
      have hhead := ih (n / 10) (by omega) (by omega)
      cases hdigits : Nat.toDigits 10 (n / 10) with
      | nil => exact absurd hdigits Nat.toDigits_ne_nil
      | cons c cs =>
        rw [hdigits] at hhead
        exact hhead

/-- Digits are read up to the first character that is none. -/
theorem readDigits_append (care : Care) {ds : List Char} (hds : IsDigits ds)
    (hrest : ∀ c ∈ rest.head?, isDigit c = false) :
    readDigits care (ds ++ rest) = .ok (ds, rest) := by
  have hspan : (ds ++ rest).span isDigit = (ds, rest) := span_append_of_head hds.2 hrest
  cases ds with
  | nil => exact absurd rfl hds.1
  | cons c ds =>
    rw [List.cons_append] at hspan ⊢
    rw [readDigits, if_pos (hds.2 c List.mem_cons_self), hspan]

end Digits

section Numerals

/-- What stands behind a number: nothing, or a character that no number goes on with. -/
def EndsNumber (rest : List Char) : Prop :=
  ∀ c ∈ rest.head?, isDigit c = false ∧ c ≠ '.' ∧ c ≠ 'e' ∧ c ≠ 'E'

theorem endsNumber_nil : EndsNumber [] := by
  rintro c ⟨⟩

theorem endsNumber_cons {c : Char} (hdigit : isDigit c = false)
    (hmarks : c ≠ '.' ∧ c ≠ 'e' ∧ c ≠ 'E') (rest : List Char) : EndsNumber (c :: rest) := by
  rintro d ⟨⟩
  exact ⟨hdigit, hmarks⟩

def fractionChars : Option (List Char) → List Char
  | none => []
  | some digits => '.' :: digits

def exponentChars : Option Int → List Char
  | none => []
  | some e => 'e' :: (if e < 0 then '-' else '+') :: Nat.toDigits 10 e.natAbs

/-- The text of a number as it is written. -/
def Numeral.chars (n : Numeral) : List Char :=
  (if n.negative then ['-'] else []) ++
    (n.whole ++ (fractionChars n.fraction ++ exponentChars n.exponent))

/-- What the grammar asks of the parts: there are digits in front of the point and, if there is one,
behind it, and no other digit follows a zero in front. -/
structure Numeral.WellFormed (n : Numeral) : Prop where
  whole : IsDigits n.whole
  noZero : n.whole = ['0'] ∨ n.whole.head? ≠ some '0'
  fraction : ∀ ds ∈ n.fraction, IsDigits ds

theorem readWhole_append {ds : List Char} (hds : IsDigits ds)
    (hzero : ds = ['0'] ∨ ds.head? ≠ some '0') (hrest : ∀ c ∈ rest.head?, isDigit c = false) :
    readWhole care (ds ++ rest) = .ok (ds, rest) := by
  obtain rfl | hzero := hzero
  · -- A zero in front is read alone, and the next character must not be a digit.
    cases rest with
    | nil => rfl
    | cons c rest =>
      have hc : isDigit c = false := hrest c rfl
      simp [readWhole, hc]
  · rw [← readDigits_append care hds hrest]
    unfold readWhole
    split
    · next heq =>
      cases ds with
      | nil => exact absurd rfl hds.1
      | cons c ds =>
        rw [List.cons_append, List.cons.injEq] at heq
        exact absurd (congrArg some heq.1) hzero
    · rfl

theorem readFraction_append {fraction : Option (List Char)} (hds : ∀ ds ∈ fraction, IsDigits ds)
    (hrest : ∀ c ∈ rest.head?, isDigit c = false ∧ c ≠ '.') :
    readFraction care (fractionChars fraction ++ rest) = .ok (fraction, rest) := by
  cases fraction with
  | none =>
    show readFraction care rest = _
    unfold readFraction
    split
    · exact absurd rfl (hrest '.' rfl).2
    · rfl
  | some ds =>
    show (readDigits care (ds ++ rest) >>= _) = _
    rw [readDigits_append care (hds ds rfl) fun c hc => (hrest c hc).1]
    rfl

/-- The sign in front of the digits of an exponent, and what follows it. -/
def exponentSign : List Char → Bool × List Char
  | '-' :: cs => (true, cs)
  | '+' :: cs => (false, cs)
  | cs => (false, cs)

theorem readExponent_cons (care : Care) (c : Char) (cs : List Char) :
    readExponent care (c :: cs) =
      if c = 'e' ∨ c = 'E' then do
        let (digits, tail) ← readDigits care (exponentSign cs).2
        return (some (if (exponentSign cs).1 then -(ofDigits digits : Int) else ofDigits digits),
          tail)
      else .ok (none, c :: cs) :=
  rfl

theorem readExponent_append (exponent : Option Int) (hrest : EndsNumber rest) :
    readExponent care (exponentChars exponent ++ rest) = .ok (exponent, rest) := by
  cases exponent with
  | none =>
    show readExponent care rest = _
    cases rest with
    | nil => rfl
    | cons c rest =>
      obtain ⟨-, -, hlower, hupper⟩ := hrest c rfl
      rw [readExponent_cons, if_neg (not_or.mpr ⟨hlower, hupper⟩)]
  | some e =>
    have hdigits := readDigits_append care (isDigits_toDigits e.natAbs) fun c hc => (hrest c hc).1
    have hsign : exponentSign ((if e < 0 then '-' else '+') :: (Nat.toDigits 10 e.natAbs ++ rest)) =
        (decide (e < 0), Nat.toDigits 10 e.natAbs ++ rest) := by
      split
      · next he =>
        rw [decide_eq_true he]
        rfl
      · next he =>
        rw [decide_eq_false he]
        rfl
    show readExponent care
      ('e' :: (if e < 0 then '-' else '+') :: (Nat.toDigits 10 e.natAbs ++ rest)) = _
    rw [readExponent_cons, if_pos (.inl rfl), hsign, hdigits]
    have hvalue : (if decide (e < 0) = true then -(e.natAbs : Int) else e.natAbs) = e := by
      split
      · next he =>
        have hneg : e < 0 := of_decide_eq_true he
        rw [Int.ofNat_natAbs_of_nonpos (Int.le_of_lt hneg), Int.neg_neg]
      · next he =>
        have hnonneg : 0 ≤ e := Int.not_lt.mp fun h => he (decide_eq_true h)
        exact Int.natAbs_of_nonneg hnonneg
    show Except.ok (some (if decide (e < 0) = true then
      -(ofDigits (Nat.toDigits 10 e.natAbs) : Int) else ofDigits (Nat.toDigits 10 e.natAbs)),
        rest) = _
    rw [ofDigits_toDigits, hvalue]

/-- The sign in front of a number, and what follows it. -/
def numeralSign : List Char → Bool × List Char
  | '-' :: cs => (true, cs)
  | cs => (false, cs)

theorem readNumeral_eq (care : Care) (cs : List Char) :
    readNumeral care cs = do
      let (whole, cs') ← readWhole care (numeralSign cs).2
      let (fraction, cs') ← readFraction care cs'
      let (exponent, cs') ← readExponent care cs'
      return (⟨(numeralSign cs).1, whole, fraction, exponent⟩, cs') :=
  rfl

theorem numeralSign_chars {n : Numeral} (h : n.WellFormed) (rest : List Char) :
    numeralSign (n.chars ++ rest) =
      (n.negative,
        n.whole ++ (fractionChars n.fraction ++ (exponentChars n.exponent ++ rest))) := by
  rw [Numeral.chars, List.append_assoc, List.append_assoc, List.append_assoc]
  cases n.negative with
  | true => rfl
  | false =>
    cases hwhole : n.whole with
    | nil => exact absurd hwhole h.whole.1
    | cons c ds =>
      have hc : isDigit c = true := h.whole.2 c (hwhole ▸ List.mem_cons_self)
      show numeralSign (c :: (ds ++ _)) = _
      unfold numeralSign
      split
      · next heq =>
        rw [(List.cons.inj heq).1] at hc
        cases hc
      · rfl

theorem exists_cons_chars {n : Numeral} (h : n.WellFormed) :
    ∃ c cs, n.chars = c :: cs ∧ (c = '-' ∨ isDigit c = true) := by
  rw [Numeral.chars]
  cases n.negative with
  | true => exact ⟨'-', _, rfl, .inl rfl⟩
  | false =>
    cases hwhole : n.whole with
    | nil => exact absurd hwhole h.whole.1
    | cons c ds => exact ⟨c, _, rfl, .inr (h.whole.2 c (hwhole ▸ List.mem_cons_self))⟩

/-- A number that is written as the grammar has it is read part by part. -/
theorem readNumeral_chars {n : Numeral} (h : n.WellFormed) (hrest : EndsNumber rest) :
    readNumeral care (n.chars ++ rest) = .ok (n, rest) := by
  -- Each part ends where the next one starts, with a mark that the part itself cannot hold.
  have hexponent : ∀ c ∈ (exponentChars n.exponent ++ rest).head?, isDigit c = false ∧ c ≠ '.' := by
    cases n.exponent with
    | none => exact fun c hc => ⟨(hrest c hc).1, (hrest c hc).2.1⟩
    | some e =>
      rintro c ⟨⟩
      decide
  have hfraction : ∀ c ∈ (fractionChars n.fraction ++ (exponentChars n.exponent ++ rest)).head?,
      isDigit c = false := by
    cases n.fraction with
    | none => exact fun c hc => (hexponent c hc).1
    | some ds =>
      rintro c ⟨⟩
      decide
  rw [readNumeral_eq, numeralSign_chars h, readWhole_append h.whole h.noZero hfraction]
  show (readFraction care _ >>= _) = _
  rw [readFraction_append h.fraction hexponent]
  show (readExponent care _ >>= _) = _
  rw [readExponent_append n.exponent hrest]
  rfl

/-- What a number is read as is what its parts say. -/
theorem readNumber_chars_iff {n : Numeral} (h : n.WellFormed) (hrest : EndsNumber rest) {j : Json} :
    readNumber .kept (n.chars ++ rest) = .ok (j, rest) ↔ n.toJson? = some j := by
  cases hvalue : n.toJson? with
  | none =>
    have hread : readNumber .kept (n.chars ++ rest) = .error .malformed := by
      simp only [readNumber, readNumeral_chars h hrest, bind, Except.bind, hvalue]
    rw [hread]
    exact ⟨nofun, nofun⟩
  | some k =>
    have hread : readNumber .kept (n.chars ++ rest) = .ok (k, rest) := by
      simp only [readNumber, readNumeral_chars h hrest, bind, Except.bind, hvalue]
      rfl
    rw [hread, Except.ok.injEq, Prod.mk.injEq, Option.some.injEq, and_iff_left rfl]

end Numerals

section Whole

/-- A whole number as it is written. -/
def Numeral.ofInt (n : Int) : Numeral := ⟨n < 0, Nat.toDigits 10 n.natAbs, none, none⟩

theorem Numeral.wellFormed_ofInt (n : Int) : (Numeral.ofInt n).WellFormed where
  whole := isDigits_toDigits n.natAbs
  noZero := by
    show Nat.toDigits 10 n.natAbs = ['0'] ∨ (Nat.toDigits 10 n.natAbs).head? ≠ some '0'
    by_cases hn : n.natAbs = 0
    · rw [hn]
      exact .inl rfl
    · exact .inr (head?_toDigits_ne_zero hn)
  fraction := by rintro ds ⟨⟩

theorem Numeral.chars_ofInt (n : Int) : (Numeral.ofInt n).chars = (toString n).toList := by
  rw [Int.toString_eq_repr, Int.repr_eq_if]
  split
  · next hn =>
    obtain ⟨m, rfl⟩ := Int.eq_ofNat_of_zero_le hn
    rw [Int.toNat_natCast, Nat.toList_repr]
    simp [Numeral.ofInt, Numeral.chars, fractionChars, exponentChars]
  · next hn =>
    obtain ⟨m, hm⟩ := Int.eq_ofNat_of_zero_le (show 0 ≤ -n by omega)
    obtain rfl : n = -(m : Int) := by omega
    have hneg : -(m : Int) < 0 := Int.not_le.mp hn
    rw [Int.neg_neg, Int.toNat_natCast, String.toList_append, Nat.toList_repr]
    simp only [Numeral.ofInt, Numeral.chars, fractionChars, exponentChars, decide_eq_true hneg,
      Int.natAbs_neg, Int.natAbs_natCast, List.append_nil]
    rfl

/-- A whole number that fits 64 bits, with a sign or without, is read as itself. -/
theorem Numeral.toJson?_ofInt {n : Int} (hlow : Int64.minValue.toInt ≤ n)
    (hhigh : n < UInt64.size) : (Numeral.ofInt n).toJson? = some (.int n) := by
  simp only [Numeral.ofInt, Numeral.toJson?, ofDigits_toDigits, Option.isNone_none, Bool.and_true,
    Bool.true_and]
  by_cases hn : n < 0
  · have hzero : n.natAbs ≠ 0 := by omega
    have habs : -(n.natAbs : Int) = n := by omega
    rw [decide_eq_true hn, decide_eq_true hzero, habs, decide_eq_true hlow]
    rfl
  · have hfits : n.natAbs < UInt64.size := by omega
    have habs : (n.natAbs : Int) = n := by omega
    rw [decide_eq_false hn, decide_eq_true hfits, habs]
    rfl

end Whole

end Schemata.Json
