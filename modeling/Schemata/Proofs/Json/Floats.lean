import Schemata.Proofs.Json.Numbers
import Schemata.Proofs.Number.Shortest
/-!
# Floating-point numbers as they are written

The canonical text of a floating-point number is a number as the grammar has it, and what it writes
rounds to the floating-point number. So different numbers have different texts, and whether such a
text reads back does not depend on what follows it.
-/

namespace Schemata

namespace Json

theorem foldl_digits (ds : List Char) (n : Nat) :
    ds.foldl (fun n c => 10 * n + digitValue c) n = n * 10 ^ ds.length + ofDigits ds := by
  induction ds generalizing n with
  | nil => simp [ofDigits]
  | cons c ds ih =>
    rw [ofDigits, List.foldl_cons, List.foldl_cons, ih, ih, List.length_cons, Nat.pow_succ]
    ring

theorem ofDigits_append (ds es : List Char) :
    ofDigits (ds ++ es) = ofDigits ds * 10 ^ es.length + ofDigits es := by
  rw [ofDigits, List.foldl_append, foldl_digits]
  rfl

theorem ofDigits_zeros (n : Nat) : ofDigits (List.replicate n '0') = 0 := by
  induction n with
  | zero => rfl
  | succ n ih => exact ih

/-- The real that a number writes, without its sign. -/
def Numeral.value (n : Numeral) : ℚ :=
  ofDigits (n.whole ++ n.fraction.getD []) *
    10 ^ (n.exponent.getD 0 - (n.fraction.getD []).length)

section Layouts

variable {negative : Bool} {digits : List Char}

/-- The parts of a text with the point after the first `point` of the digits. -/
def Numeral.placed (negative : Bool) (digits : List Char) (point : Int) : Numeral :=
  if point ≤ 0 then
    ⟨negative, ['0'], some (List.replicate (-point).toNat '0' ++ digits), none⟩
  else if digits.length ≤ point.toNat then
    ⟨negative, digits ++ List.replicate (point.toNat - digits.length) '0', some ['0'], none⟩
  else
    ⟨negative, digits.take point.toNat, some (digits.drop point.toNat), none⟩

theorem Numeral.chars_placed (negative : Bool) (digits : List Char) (point : Int) :
    (placed negative digits point).chars =
      (if negative then ['-'] else []) ++ NumberLayout.canonical.placePoint digits point := by
  unfold placed NumberLayout.placePoint
  split_ifs <;>
    simp_all [Numeral.chars, fractionChars, exponentChars, NumberLayout.canonical]

/-- The placed point only moves the digits. -/
theorem Numeral.value_placed (negative : Bool) (digits : List Char) (point : Int) :
    (placed negative digits point).value = ofDigits digits * 10 ^ (point - digits.length) := by
  have hzero : ofDigits ['0'] = 0 := rfl
  unfold placed
  split_ifs with hfront hbehind
  · -- All digits stand behind the point, after zeros that write nothing.
    have hvalue : ofDigits (['0'] ++ (List.replicate (-point).toNat '0' ++ digits)) =
        ofDigits digits := by
      rw [ofDigits_append, ofDigits_append, ofDigits_zeros, hzero]
      omega
    have hplaces : (0 : Int) - (List.replicate (-point).toNat '0' ++ digits).length =
        point - digits.length := by
      rw [List.length_append, List.length_replicate]
      omega
    show (ofDigits (['0'] ++ (List.replicate (-point).toNat '0' ++ digits)) : ℚ) *
      10 ^ ((0 : Int) - (List.replicate (-point).toNat '0' ++ digits).length) = _
    rw [hvalue, hplaces]
  · -- All digits stand in front of the point, before zeros that each count ten times.
    have hvalue (k : Nat) : ofDigits (digits ++ List.replicate k '0' ++ ['0']) =
        ofDigits digits * 10 ^ k * 10 := by
      rw [ofDigits_append, ofDigits_append, ofDigits_zeros, hzero, List.length_replicate]
      simp
    have hplaces : point - digits.length = ((point.toNat - digits.length : Nat) : Int) := by
      omega
    show (ofDigits (digits ++ List.replicate (point.toNat - digits.length) '0' ++ ['0']) : ℚ) *
      10 ^ ((0 : Int) - 1) = _
    rw [hvalue, hplaces, zpow_natCast, Int.zero_sub, zpow_neg_one]
    push_cast
    ring
  · have hplaces : (0 : Int) - (digits.drop point.toNat).length = point - digits.length := by
      rw [List.length_drop]
      omega
    show (ofDigits (digits.take point.toNat ++ digits.drop point.toNat) : ℚ) *
      10 ^ ((0 : Int) - (digits.drop point.toNat).length) = _
    rw [List.take_append_drop, hplaces]

theorem isDigits_append_right {ds es : List Char} (hds : ∀ c ∈ ds, isDigit c = true)
    (hes : IsDigits es) : IsDigits (ds ++ es) :=
  ⟨List.append_ne_nil_of_right_ne_nil ds hes.1, List.forall_mem_append.mpr ⟨hds, hes.2⟩⟩

theorem isDigits_append_left {ds es : List Char} (hds : IsDigits ds)
    (hes : ∀ c ∈ es, isDigit c = true) : IsDigits (ds ++ es) :=
  ⟨List.append_ne_nil_of_left_ne_nil hds.1 es, List.forall_mem_append.mpr ⟨hds.2, hes⟩⟩

theorem isDigit_of_mem_zeros {n : Nat} : ∀ c ∈ List.replicate n '0', isDigit c = true := by
  intro c hc
  rw [List.eq_of_mem_replicate hc]
  rfl

theorem isDigits_take (hdigits : IsDigits digits) {n : Nat} (hn : 0 < n) :
    IsDigits (digits.take n) :=
  ⟨fun h => (List.take_eq_nil_iff.mp h).elim (fun h0 => by omega) hdigits.1,
    fun c hc => hdigits.2 c (List.mem_of_mem_take hc)⟩

theorem isDigits_drop (hdigits : IsDigits digits) {n : Nat} (hn : n < digits.length) :
    IsDigits (digits.drop n) :=
  ⟨fun h => by
    have hlength := List.drop_eq_nil_iff.mp h
    omega,
    fun c hc => hdigits.2 c (List.mem_of_mem_drop hc)⟩

theorem Numeral.wellFormed_placed (hdigits : IsDigits digits) (hhead : digits.head? ≠ some '0')
    (negative : Bool) (point : Int) : (placed negative digits point).WellFormed := by
  unfold placed
  split_ifs with hfront hbehind
  · refine ⟨isDigits_zero, .inl rfl, ?_⟩
    rintro _ ⟨⟩
    exact isDigits_append_right isDigit_of_mem_zeros hdigits
  · refine ⟨isDigits_append_left hdigits isDigit_of_mem_zeros, .inr ?_, ?_⟩
    · show (digits ++ _).head? ≠ some '0'
      rw [List.head?_append_of_ne_nil digits hdigits.1]
      exact hhead
    · rintro _ ⟨⟩
      exact isDigits_zero
  · have hpoint : 0 < point.toNat := by omega
    refine ⟨isDigits_take hdigits hpoint, .inr ?_, ?_⟩
    · show (digits.take point.toNat).head? ≠ some '0'
      rw [List.head?_take, if_neg hpoint.ne']
      exact hhead
    · rintro _ ⟨⟩
      exact isDigits_drop hdigits (by omega)

/-- The parts of a text with one digit before the point. -/
def Numeral.scientific (negative : Bool) (digits : List Char) (exponent : Int) : Numeral :=
  ⟨negative, digits.take 1, if digits.length = 1 then none else some (digits.drop 1),
    some exponent⟩

theorem Numeral.chars_scientific (negative : Bool) (hdigits : digits ≠ []) (exponent : Int) :
    (scientific negative digits exponent).chars =
      (if negative then ['-'] else []) ++ NumberLayout.scientific digits exponent := by
  cases digits with
  | nil => exact absurd rfl hdigits
  | cons d ds =>
    cases ds with
    | nil => rfl
    | cons e es => rfl

/-- The exponent moves the point back to where it was. -/
theorem Numeral.value_scientific (negative : Bool) (hdigits : digits ≠ []) (exponent : Int) :
    (scientific negative digits exponent).value =
      ofDigits digits * 10 ^ (exponent + 1 - digits.length) := by
  cases digits with
  | nil => exact absurd rfl hdigits
  | cons d ds =>
    cases ds with
    | nil =>
      have hplaces : exponent - (0 : Nat) = exponent + 1 - (1 : Nat) := by omega
      show (ofDigits [d] : ℚ) * 10 ^ (exponent - (0 : Nat)) = _
      rw [hplaces]
      rfl
    | cons e es =>
      have hplaces : exponent - ((e :: es).length : Int) =
          exponent + 1 - ((d :: e :: es).length : Int) := by
        rw [List.length_cons (a := d)]
        omega
      show (ofDigits (d :: e :: es) : ℚ) * 10 ^ (exponent - ((e :: es).length : Int)) = _
      rw [hplaces]

theorem Numeral.wellFormed_scientific (hdigits : IsDigits digits)
    (hhead : digits.head? ≠ some '0') (negative : Bool) (exponent : Int) :
    (scientific negative digits exponent).WellFormed := by
  refine ⟨isDigits_take hdigits Nat.one_pos, .inr ?_, ?_⟩
  · show (digits.take 1).head? ≠ some '0'
    rw [List.head?_take, if_neg Nat.one_ne_zero]
    exact hhead
  · intro ds hds
    have hlength : digits.length ≠ 0 := fun h => hdigits.1 (List.length_eq_zero_iff.mp h)
    change ds ∈ (if digits.length = 1 then none else some (digits.drop 1)) at hds
    split_ifs at hds with hone
    · cases hds
    · cases hds
      exact isDigits_drop hdigits (by omega)

/-- The parts of a canonical text, from the digits and where the point is. -/
def Numeral.canonical (negative : Bool) (digits : List Char) (point : Int) : Numeral :=
  if NumberLayout.canonical.isPositional (point - 1) then placed negative digits point
  else scientific negative digits (point - 1)

theorem Numeral.chars_canonical (negative : Bool) (hdigits : digits ≠ []) (point : Int) :
    (canonical negative digits point).chars =
      (if negative then ['-'] else []) ++
        if NumberLayout.canonical.isPositional (point - 1) then
          NumberLayout.canonical.placePoint digits point
        else NumberLayout.scientific digits (point - 1) := by
  unfold canonical
  by_cases h : NumberLayout.canonical.isPositional (point - 1) = true
  · rw [if_pos h, if_pos h, chars_placed]
  · rw [if_neg h, if_neg h, chars_scientific negative hdigits]

theorem Numeral.value_canonical (negative : Bool) (hdigits : digits ≠ []) (point : Int) :
    (canonical negative digits point).value = ofDigits digits * 10 ^ (point - digits.length) := by
  unfold canonical
  split_ifs
  · exact value_placed negative digits point
  · rw [value_scientific negative hdigits, Int.sub_add_cancel]

theorem Numeral.wellFormed_canonical (hdigits : IsDigits digits)
    (hhead : digits.head? ≠ some '0') (negative : Bool) (point : Int) :
    (canonical negative digits point).WellFormed := by
  unfold canonical
  split_ifs
  · exact wellFormed_placed hdigits hhead negative point
  · exact wellFormed_scientific hdigits hhead negative (point - 1)

theorem Numeral.negative_canonical (negative : Bool) (digits : List Char) (point : Int) :
    (canonical negative digits point).negative = negative := by
  unfold canonical placed scientific
  split_ifs <;> rfl

end Layouts

end Json

namespace Binary64

open Json (Numeral IsDigits ofDigits)

variable {x y : Binary64}

/-- The parts of the canonical text of a number. -/
def numeral (x : Binary64) : Numeral :=
  if x.isZero then ⟨x.negative, ['0'], some ['0'], none⟩
  else
    let decimal := x.shortest .toEven
    let digits := Nat.toDigits 10 decimal.digits
    .canonical x.negative digits (digits.length + decimal.exponent)

theorem isZero_iff : x.isZero = true ↔ x.significand = 0 := beq_iff_eq

theorem numeral_of_isZero (h : x.isZero = true) :
    x.numeral = ⟨x.negative, ['0'], some ['0'], none⟩ :=
  if_pos h

theorem numeral_of_not_isZero (h : ¬x.isZero = true) :
    ∃ digits point, x.numeral = .canonical x.negative digits point ∧
      digits = Nat.toDigits 10 (x.shortest .toEven).digits ∧
      point - digits.length = (x.shortest .toEven).exponent := by
  refine ⟨_, _, if_neg h, rfl, ?_⟩
  omega

theorem chars_numeral (x : Binary64) :
    x.numeral.chars = (NumberLayout.canonical.render x).toList := by
  have hsign (cs : List Char) : (if x.negative then '-' :: cs else cs) =
      (if x.negative then ['-'] else []) ++ cs := by
    cases x.negative <;> rfl
  have htie : NumberLayout.canonical.tie = .toEven := rfl
  rw [NumberLayout.render, String.toList_ofList, hsign, NumberLayout.magnitude, htie]
  by_cases hzero : x.isZero = true
  · rw [numeral_of_isZero hzero, if_pos hzero]
    rfl
  · rw [numeral, if_neg hzero, if_neg hzero]
    dsimp only
    rw [Numeral.chars_canonical _ Nat.toDigits_ne_nil]

theorem covers_zero (h : x.significand = 0) : x.Covers 0 := by
  have hfst : x.bounds.1 = 0 := by
    rw [bounds_fst, h, Nat.zero_mul, Nat.zero_sub]
  have hsnd : 0 < x.bounds.2 :=
    Nat.lt_of_lt_of_le (Nat.mul_pos (by decide) (Nat.two_pow_pos x.scale)) (Nat.le_add_left _ _)
  refine ⟨.inr ⟨by rw [h], ?_⟩, .inl (Nat.cast_pos.mpr hsnd)⟩
  rw [hfst, Nat.cast_zero]

/-- What the text writes rounds to the number. -/
theorem covers_numeral (x : Binary64) : x.Covers (4 * (x.numeral.value * unitsPerOne)) := by
  by_cases hzero : x.isZero = true
  · have hvalue : x.numeral.value = 0 := by
      rw [numeral_of_isZero hzero]
      exact zero_mul _
    rw [hvalue, zero_mul, mul_zero]
    exact covers_zero (isZero_iff.mp hzero)
  · obtain ⟨digits, point, hnumeral, hdigits, hpoint⟩ := numeral_of_not_isZero hzero
    have hvalue : x.numeral.value = (x.shortest .toEven).value := by
      rw [hnumeral, Numeral.value_canonical _ (hdigits ▸ Nat.toDigits_ne_nil), hpoint, hdigits,
        Json.ofDigits_toDigits, Decimal.value]
    rw [hvalue]
    exact covers_shortest .toEven fun h => hzero (isZero_iff.mpr h)

/-- The shortest decimal of a number is zero only if the number is. -/
theorem digits_shortest_ne_zero (tie : Tie) (h : x.significand ≠ 0) :
    (x.shortest tie).digits ≠ 0 := by
  intro hdigits
  have hcovers := covers_shortest tie h
  rw [Decimal.quarters, Decimal.value, hdigits, Nat.cast_zero, zero_mul, zero_mul, mul_zero]
    at hcovers
  have hzero : x = zero x.negative := eq_of_covers hcovers (covers_zero rfl) rfl
  exact h (congrArg significand hzero)

theorem wellFormed_numeral (x : Binary64) : x.numeral.WellFormed := by
  by_cases hzero : x.isZero = true
  · rw [numeral_of_isZero hzero]
    refine ⟨Json.isDigits_zero, .inl rfl, ?_⟩
    rintro _ ⟨⟩
    exact Json.isDigits_zero
  · obtain ⟨digits, point, hnumeral, hdigits, -⟩ := numeral_of_not_isZero hzero
    have hnonzero := digits_shortest_ne_zero .toEven fun h => hzero (isZero_iff.mpr h)
    rw [hnumeral]
    exact Numeral.wellFormed_canonical (hdigits ▸ Json.isDigits_toDigits _)
      (hdigits ▸ Json.head?_toDigits_ne_zero hnonzero) _ _

theorem negative_numeral (x : Binary64) : x.numeral.negative = x.negative := by
  by_cases hzero : x.isZero = true
  · rw [numeral_of_isZero hzero]
  · obtain ⟨digits, point, hnumeral, -, -⟩ := numeral_of_not_isZero hzero
    rw [hnumeral, Numeral.negative_canonical]

/-- The parts of its text tell a number apart. -/
theorem numeral_injective : Function.Injective numeral := by
  intro x y h
  -- What is written rounds to both numbers.
  have hy := covers_numeral y
  rw [← h] at hy
  have hsign := negative_numeral y
  rw [← h, negative_numeral] at hsign
  exact eq_of_covers (covers_numeral x) hy hsign

/-- No two numbers have one canonical text. -/
theorem render_injective : Function.Injective NumberLayout.canonical.render := by
  intro x y h
  -- Both texts are read part by part, so the parts are the same.
  have hx : Json.readNumeral .kept (x.numeral.chars ++ []) = .ok (x.numeral, []) :=
    Json.readNumeral_chars (wellFormed_numeral x) Json.endsNumber_nil
  have hy : Json.readNumeral .kept (y.numeral.chars ++ []) = .ok (y.numeral, []) :=
    Json.readNumeral_chars (wellFormed_numeral y) Json.endsNumber_nil
  rw [chars_numeral, h, ← chars_numeral, hy] at hx
  exact numeral_injective (congrArg Prod.fst (Except.ok.inj hx)).symm

end Binary64

namespace Json

/-- The canonical text of a floating-point number, by itself, is read as that number. -/
def ReadsBack (x : Binary64) : Prop :=
  readNumber .kept (NumberLayout.canonical.render x).toList = .ok (.float x, [])

/-- The floating-point number that a text writes. -/
def float? (cs : List Char) : Option Binary64 :=
  match readNumber .kept cs with
  | .ok (.float x, []) => some x
  | _ => none

theorem float?_eq_some {cs : List Char} {x : Binary64} :
    float? cs = some x ↔ readNumber .kept cs = .ok (.float x, []) := by
  unfold float?
  split
  · next y heq => simp [heq]
  · next hother =>
    constructor
    · rintro ⟨⟩
    · exact fun h => absurd h (hother x)

instance (x : Binary64) : Decidable (ReadsBack x) :=
  decidable_of_iff _ float?_eq_some

/-- Whether a text reads back only depends on what its parts say. -/
theorem readsBack_iff {x : Binary64} : ReadsBack x ↔ x.numeral.toJson? = some (.float x) := by
  rw [ReadsBack, ← Binary64.chars_numeral, ← List.append_nil x.numeral.chars]
  exact readNumber_chars_iff x.wellFormed_numeral endsNumber_nil

example : ReadsBack ⟨false, 3 * 2 ^ 51, 1022, by decide⟩ := by decide +kernel

end Json

end Schemata
