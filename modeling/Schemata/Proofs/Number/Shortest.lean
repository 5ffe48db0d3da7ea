import Mathlib.Algebra.Order.Field.Power
import Mathlib.Tactic.LinearCombination
import Mathlib.Tactic.Positivity
import Mathlib.Tactic.Ring
import Schemata.Proofs.Number.Intervals
/-!
# Shortest decimals lie in the rounding interval

The shortest decimal of a number is one of the reals that round to it. Seventeen digits are always
enough, so that one is always found.
-/

namespace Schemata

namespace Decimal

/-- The real that the decimal writes. -/
def value (d : Decimal) : ℚ := d.digits * 10 ^ d.exponent

/-- The real in quarters of the unit of binary numbers. -/
def quarters (d : Decimal) : ℚ := 4 * (d.value * Binary64.unitsPerOne)

theorem value_stripZeros (n : Nat) (d : Decimal) : (d.stripZeros n).value = d.value := by
  induction n generalizing d with
  | zero => rfl
  | succ n ih =>
    rw [stripZeros]
    split
    · next h =>
      obtain ⟨m, hm⟩ : ∃ m, d.digits = 10 * m := ⟨d.digits / 10, by omega⟩
      have hdiv : d.digits / 10 = m := by omega
      rw [ih, value, value, hdiv, hm, zpow_add_one₀ (by norm_num)]
      push_cast
      ring
    · rfl

end Decimal

namespace Binary64

variable {x : Binary64} {tie : Tie} {exponent : Int}

section Grid

theorem zpow_mul_pow_toNat (exponent : Int) :
    (10 : ℚ) ^ exponent * 10 ^ (-exponent).toNat = 10 ^ exponent.toNat := by
  obtain ⟨n, rfl | rfl⟩ := exponent.eq_nat_or_neg
  · simp
  · simp

theorem quarters_mul_gridUp (exponent : Int) (d : Nat) :
    (⟨d, exponent⟩ : Decimal).quarters * gridUp exponent =
      (4 * d * gridStep exponent : Nat) := by
  have hpow := zpow_mul_pow_toNat exponent
  rw [Decimal.quarters, Decimal.value, gridUp, gridStep, Nat.pow_eq, Nat.pow_eq]
  push_cast
  linear_combination 4 * d * unitsPerOne * hpow

theorem gridUp_pos (exponent : Int) : (0 : ℚ) < gridUp exponent :=
  Nat.cast_pos.mpr (Nat.pow_pos (by decide))

/-- Comparisons that are cleared of fractions are those of the reals. -/
theorem readsBackOn_iff_covers (x : Binary64) (exponent : Int) (d : Nat) :
    x.readsBackOn exponent d = true ↔ x.Covers (⟨d, exponent⟩ : Decimal).quarters := by
  have hup := gridUp_pos exponent
  have hpoint := quarters_mul_gridUp exponent d
  have hlt (a : Nat) : a * gridUp exponent < 4 * d * gridStep exponent ↔
      (a : ℚ) < (⟨d, exponent⟩ : Decimal).quarters := by
    rw [← mul_lt_mul_iff_left₀ hup, hpoint, ← Nat.cast_mul, Nat.cast_lt]
  have hgt (a : Nat) : 4 * d * gridStep exponent < a * gridUp exponent ↔
      (⟨d, exponent⟩ : Decimal).quarters < a := by
    rw [← mul_lt_mul_iff_left₀ hup, hpoint, ← Nat.cast_mul, Nat.cast_lt]
  have heq (a : Nat) : a * gridUp exponent = 4 * d * gridStep exponent ↔
      (a : ℚ) = (⟨d, exponent⟩ : Decimal).quarters := by
    rw [← mul_left_inj' hup.ne', hpoint, ← Nat.cast_mul, Nat.cast_inj]
  rw [readsBackOn, decide_eq_true_iff, Covers, ← hlt, ← hgt, ← heq, @eq_comm ℚ _ x.bounds.2, ← heq,
    @eq_comm Nat (x.bounds.2 * _)]

/-- A decimal that is found on a grid rounds to the magnitude. -/
theorem covers_of_onGrid? {d : Decimal} (h : x.onGrid? tie exponent = some d) :
    x.Covers d.quarters := by
  simp only [onGrid?] at h
  split_ifs at h with hbelow hnearer habove
  · rw [← Option.some.inj h]
    exact (readsBackOn_iff_covers x exponent _).mp hbelow
  · rw [Bool.or_eq_true, not_or, Bool.not_eq_true', Bool.not_eq_false] at hnearer
    rw [← Option.some.inj h]
    exact (readsBackOn_iff_covers x exponent _).mp hnearer.2
  · rw [← Option.some.inj h]
    exact (readsBackOn_iff_covers x exponent _).mp habove

/-- If none is found, neither neighbour of the magnitude on the grid rounds to it. -/
theorem not_covers_of_onGrid? (h : x.onGrid? tie exponent = none) :
    ¬x.Covers (⟨x.gridFloor exponent, exponent⟩ : Decimal).quarters ∧
      ¬x.Covers (⟨x.gridFloor exponent + 1, exponent⟩ : Decimal).quarters := by
  simp only [onGrid?] at h
  split_ifs at h with hbelow hnearer habove
  rw [← readsBackOn_iff_covers, ← readsBackOn_iff_covers]
  exact ⟨hbelow, habove⟩

end Grid

section Width

theorem quarters_gridFloor_le (x : Binary64) (exponent : Int) :
    (⟨x.gridFloor exponent, exponent⟩ : Decimal).quarters ≤ 4 * x.units := by
  have hdiv := Nat.div_mul_le_self (x.units * gridUp exponent) (gridStep exponent)
  rw [← mul_le_mul_iff_left₀ (gridUp_pos exponent), quarters_mul_gridUp]
  norm_cast
  rw [gridFloor, Nat.mul_assoc, Nat.mul_assoc]
  exact Nat.mul_le_mul_left 4 hdiv

theorem gridStep_pos (exponent : Int) : 0 < gridStep exponent := by
  have hone : 0 < unitsPerOne := by decide +kernel
  exact Nat.mul_pos (Nat.pow_pos (by decide)) hone

theorem lt_quarters_gridFloor_succ (x : Binary64) (exponent : Int) :
    4 * x.units < (⟨x.gridFloor exponent + 1, exponent⟩ : Decimal).quarters := by
  have hdiv := Nat.lt_div_mul_add (a := x.units * gridUp exponent) (gridStep_pos exponent)
  rw [← mul_lt_mul_iff_left₀ (gridUp_pos exponent), quarters_mul_gridUp]
  norm_cast
  rw [gridFloor, Nat.mul_assoc, Nat.mul_assoc, Nat.add_mul, Nat.one_mul]
  omega

/-- What lies below the magnitude and does not round to it is below the interval. -/
theorem le_fst_of_not_covers {q : ℚ} (hq : q ≤ 4 * x.units) (h : ¬x.Covers q) :
    q ≤ x.bounds.1 := by
  have hsnd : 4 * x.units < x.bounds.2 :=
    Nat.lt_add_of_pos_right (Nat.mul_pos (by decide) (Nat.two_pow_pos x.scale))
  have hsnd' : 4 * (x.units : ℚ) < x.bounds.2 := by exact_mod_cast hsnd
  by_contra hlt
  exact h ⟨.inl (not_le.mp hlt), .inl (hq.trans_lt hsnd')⟩

/-- What lies above the magnitude and does not round to it is above the interval. -/
theorem snd_le_of_not_covers {q : ℚ} (hq : 4 * x.units < q) (h : ¬x.Covers q) :
    x.bounds.2 ≤ q := by
  have hfst : x.bounds.1 ≤ 4 * x.units := Nat.sub_le _ _
  have hfst' : (x.bounds.1 : ℚ) ≤ 4 * x.units := by exact_mod_cast hfst
  by_contra hlt
  exact h ⟨.inl (hfst'.trans_lt hq), .inl (not_le.mp hlt)⟩

/-- The interval is wider than the magnitude with sixteen digits less. -/
theorem units_lt_width (h : x.significand ≠ 0) :
    4 * x.units + 10 ^ 16 * x.bounds.1 < 10 ^ 16 * x.bounds.2 := by
  have hpos : 0 < 2 ^ x.scale := Nat.two_pow_pos _
  have hunits : x.units = x.significand * 2 ^ x.scale := rfl
  have hle : x.significand * 2 ^ x.scale ≤ (2 ^ 53 - 1) * 2 ^ x.scale :=
    Nat.mul_le_mul_right _ (Nat.le_sub_one_of_lt x.canonical.1)
  have hge : 1 * 2 ^ x.scale ≤ x.significand * 2 ^ x.scale :=
    Nat.mul_le_mul_right _ (Nat.one_le_iff_ne_zero.mpr h)
  rw [bounds_fst, bounds_snd, hunits]
  split
  · next hpower =>
    rw [hpower.1]
    omega
  · omega

end Width

section Point

theorem belowPower_iff (x : Binary64) (k : Int) :
    x.belowPower k = true ↔ (x.units : ℚ) < 10 ^ k * unitsPerOne := by
  have hup : (0 : ℚ) < (10 ^ (-k).toNat : Nat) := by positivity
  have hpower : 10 ^ k * unitsPerOne * ((10 ^ (-k).toNat : Nat) : ℚ) =
      (10 ^ k.toNat * unitsPerOne : Nat) := by
    have hpow := zpow_mul_pow_toNat k
    push_cast
    linear_combination unitsPerOne * hpow
  rw [belowPower, decide_eq_true_iff, Nat.pow_eq, Nat.pow_eq, ← mul_lt_mul_iff_left₀ hup, hpower,
    ← Nat.cast_mul, Nat.cast_lt]

theorem cast_unitsPerOne : (unitsPerOne : ℚ) = 2 ^ ((1074 : Nat) : Int) := by
  delta unitsPerOne
  generalize 1074 = n
  rw [Nat.pow_eq, Nat.cast_pow, Nat.cast_two, zpow_natCast]

/-- Powers compare as their exponents do if the rate between the bases is known. -/
theorem zpow_le_zpow_of_rate {a b : ℚ} (ha : 1 ≤ a) (hb : 0 ≤ b) {p q : Nat} (hq : q ≠ 0)
    (hrate : a ^ p ≤ b ^ q) {k n : Int} (hn : 0 ≤ n) (hk : q * k ≤ p * n) : a ^ k ≤ b ^ n := by
  have hpow : (a ^ k) ^ q ≤ (b ^ n) ^ q := by
    calc (a ^ k) ^ q = a ^ (q * k) := by rw [mul_comm, zpow_mul, zpow_natCast]
      _ ≤ a ^ (p * n) := zpow_le_zpow_right₀ ha hk
      _ = (a ^ p) ^ n := by rw [zpow_mul, zpow_natCast]
      _ ≤ (b ^ q) ^ n := zpow_le_zpow_left₀ hn (by positivity) hrate
      _ = (b ^ n) ^ q := by rw [← zpow_natCast, ← zpow_natCast, ← zpow_mul, ← zpow_mul, mul_comm]
  exact le_of_pow_le_pow_left₀ hq (zpow_nonneg hb n) hpow

/-- The estimate of the decimal logarithm, less one, is below the logarithm. -/
theorem ten_zpow_le_two_zpow {n k : Int} (hlow : -1074 ≤ n) (hhigh : n < 1024)
    (hk : 100000 * (k + 1) ≤ 30103 * n) : (10 : ℚ) ^ k ≤ 2 ^ n := by
  -- The logarithm of two lies between 31/103 and 28/93, which are close enough in this range.
  obtain hn | hn := le_total 0 n
  · have hrate : (10 : ℚ) ^ 31 ≤ 2 ^ 103 := by norm_num
    exact zpow_le_zpow_of_rate (by norm_num) (by norm_num) (by norm_num) hrate hn (by omega)
  · have hrate : (2 : ℚ) ^ 93 ≤ 10 ^ 28 := by norm_num
    have hinv : (2 : ℚ) ^ (-n) ≤ 10 ^ (-k) :=
      zpow_le_zpow_of_rate (by norm_num) (by norm_num) (by norm_num) hrate (by omega) (by omega)
    rw [zpow_neg, zpow_neg] at hinv
    exact (inv_le_inv₀ (by positivity) (by positivity)).mp hinv

theorem not_belowPower_estimate (h : x.significand ≠ 0) :
    ¬x.belowPower (((x.units.log2 : Int) - 1074) * 30103 / 100000 - 1) = true := by
  have hunits : x.units ≠ 0 :=
    Nat.mul_ne_zero h (Nat.two_pow_pos x.scale).ne'
  have hlt : x.units < 2 ^ (53 + x.scale) := by
    rw [Nat.pow_add]
    exact Nat.mul_lt_mul_of_pos_right x.canonical.1 (Nat.two_pow_pos x.scale)
  have hlog : x.units.log2 < 2098 := by
    have hlog := (Nat.log2_lt hunits).mpr hlt
    have hscale := x.canonical.2.1
    omega
  have hestimate : (10 : ℚ) ^ (((x.units.log2 : Int) - 1074) * 30103 / 100000 - 1) ≤
      2 ^ ((x.units.log2 : Int) - 1074) :=
    ten_zpow_le_two_zpow (by omega) (by omega) (by omega)
  have hself : ((2 ^ x.units.log2 : Nat) : ℚ) ≤ x.units :=
    Nat.cast_le.mpr (Nat.log2_self_le hunits)
  rw [belowPower_iff, not_lt]
  calc (10 : ℚ) ^ (((x.units.log2 : Int) - 1074) * 30103 / 100000 - 1) * unitsPerOne
      ≤ 2 ^ ((x.units.log2 : Int) - 1074) * unitsPerOne :=
        mul_le_mul_of_nonneg_right hestimate (Nat.cast_nonneg _)
    _ = 2 ^ x.units.log2 := by
        have hsum : (x.units.log2 : Int) - 1074 + (1074 : Nat) = x.units.log2 := by omega
        rw [cast_unitsPerOne, ← zpow_add₀ two_ne_zero, hsum, zpow_natCast]
    _ ≤ x.units := by exact_mod_cast hself

/-- The magnitude is at least `10 ^ (k - 1)` for the `k` that stands for its decimal point. -/
theorem le_units_of_decimalPoint (h : x.significand ≠ 0) :
    (10 : ℚ) ^ (x.decimalPoint - 1) * unitsPerOne ≤ x.units := by
  rw [← not_lt, ← belowPower_iff]
  unfold decimalPoint
  dsimp only
  split_ifs with hfirst hsecond
  · exact not_belowPower_estimate h
  · rwa [Int.add_sub_cancel]
  · rw [show (2 : Int) = 1 + 1 from rfl, ← Int.add_assoc, Int.add_sub_cancel]
    exact hsecond

end Point

section Found

/-- Seventeen digits are enough. -/
theorem onGrid?_ne_none (tie : Tie) (h : x.significand ≠ 0) :
    x.onGrid? tie (x.decimalPoint - 17) ≠ none := by
  intro hnone
  -- Both neighbours on the grid would miss the interval, which is wider than a step of the grid.
  obtain ⟨hbelow, habove⟩ := not_covers_of_onGrid? hnone
  have hfst := le_fst_of_not_covers (quarters_gridFloor_le x _) hbelow
  have hsnd := snd_le_of_not_covers (lt_quarters_gridFloor_succ x _) habove
  have hnext (n : Nat) (e : Int) : (⟨n + 1, e⟩ : Decimal).quarters =
      (⟨n, e⟩ : Decimal).quarters + 4 * (10 ^ e * unitsPerOne) := by
    simp only [Decimal.quarters, Decimal.value]
    push_cast
    ring
  have hpoint := le_units_of_decimalPoint h
  have hshift : (10 : ℚ) ^ (x.decimalPoint - 1) = 10 ^ 16 * 10 ^ (x.decimalPoint - 17) := by
    rw [← zpow_natCast, ← zpow_add₀ (by norm_num)]
    congr 1
    omega
  have hwidth : 4 * (x.units : ℚ) + 10 ^ 16 * x.bounds.1 < 10 ^ 16 * x.bounds.2 := by
    exact_mod_cast units_lt_width h
  rw [hnext] at hsnd
  rw [hshift] at hpoint
  linarith

/-- The shortest decimal of a number that is not zero rounds to it. -/
theorem covers_shortest (tie : Tie) (h : x.significand ≠ 0) :
    x.Covers (x.shortest tie).quarters := by
  rw [shortest, Decimal.quarters, Decimal.value_stripZeros, ← Decimal.quarters]
  cases hfound : (List.range 17).findSome? fun (n : Nat) =>
      x.onGrid? tie (x.decimalPoint - (n + 1)) with
  | none =>
    have hlast := List.findSome?_eq_none_iff.mp hfound 16 (by decide)
    exact absurd hlast (onGrid?_ne_none tie h)
  | some d =>
    obtain ⟨n, -, hn⟩ := List.exists_of_findSome?_eq_some hfound
    exact covers_of_onGrid? hn

end Found

end Binary64
end Schemata
