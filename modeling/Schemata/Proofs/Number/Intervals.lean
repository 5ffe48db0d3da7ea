import Mathlib.Data.Rat.Cast.Order
import Mathlib.Tactic.Linarith
import Schemata.Number.Shortest
/-!
# Rounding intervals

The reals that round to a binary number form an interval around its magnitude. The intervals of
different magnitudes do not meet: where two of them share an end, only the one of the even number
holds it. All ends are in quarters of a unit.
-/

namespace Schemata.Binary64

/-- A real, in quarters of a unit, rounds to the magnitude. The ends of the interval belong to it
if the significand is even. -/
def Covers (x : Binary64) (q : ℚ) : Prop :=
  (x.bounds.1 < q ∨ x.significand % 2 = 0 ∧ x.bounds.1 = q) ∧
    (q < x.bounds.2 ∨ x.significand % 2 = 0 ∧ q = x.bounds.2)

variable {x y : Binary64} {q : ℚ}

theorem Covers.le_snd (h : x.Covers q) : q ≤ x.bounds.2 := by
  obtain hlt | ⟨-, heq⟩ := h.2
  · exact hlt.le
  · exact heq.le

theorem Covers.fst_le (h : x.Covers q) : x.bounds.1 ≤ q := by
  obtain hlt | ⟨-, heq⟩ := h.1
  · exact hlt.le
  · exact heq.le

/-- Neighbouring intervals have at most an end in common, and one of them leaves it out. -/
theorem not_covers_of_le (hle : x.bounds.2 ≤ y.bounds.1)
    (hodd : x.bounds.2 = y.bounds.1 → x.significand % 2 = 0 → y.significand % 2 ≠ 0)
    (hx : x.Covers q) : ¬y.Covers q := by
  intro hy
  have hends : (x.bounds.2 : ℚ) ≤ y.bounds.1 := Nat.cast_le.mpr hle
  have hsnd : q = x.bounds.2 := le_antisymm hx.le_snd (hends.trans hy.fst_le)
  have hfst : (y.bounds.1 : ℚ) = q := le_antisymm hy.fst_le (hx.le_snd.trans hends)
  have hxeven : x.significand % 2 = 0 := by
    obtain hlt | ⟨heven, -⟩ := hx.2
    · exact absurd hsnd hlt.ne
    · exact heven
  have hyeven : y.significand % 2 = 0 := by
    obtain hlt | ⟨heven, -⟩ := hy.1
    · exact absurd hfst hlt.ne
    · exact heven
  exact hodd (Nat.cast_injective (hsnd.symm.trans hfst.symm)) hxeven hyeven

theorem bounds_snd (x : Binary64) :
    x.bounds.2 = 4 * (x.significand * 2 ^ x.scale) + 2 * 2 ^ x.scale :=
  rfl

theorem bounds_fst (x : Binary64) :
    x.bounds.1 = 4 * (x.significand * 2 ^ x.scale) -
      if x.significand = 2 ^ 52 ∧ 0 < x.scale then 2 ^ x.scale else 2 * 2 ^ x.scale :=
  rfl

theorem not_covers_of_significand_lt (hscale : x.scale = y.scale)
    (hlt : x.significand < y.significand) (hx : x.Covers q) : ¬y.Covers q := by
  have hstep : (x.significand + 1) * 2 ^ x.scale ≤ y.significand * 2 ^ x.scale :=
    Nat.mul_le_mul_right _ hlt
  rw [Nat.add_mul, Nat.one_mul] at hstep
  have hpos : 0 < 2 ^ x.scale := Nat.two_pow_pos _
  refine not_covers_of_le ?_ ?_ hx
  · rw [bounds_snd, bounds_fst, ← hscale]
    split <;> omega
  · intro heq heven hyeven
    have htwo : x.significand + 2 ≤ y.significand := by omega
    have hsteps : (x.significand + 2) * 2 ^ x.scale ≤ y.significand * 2 ^ x.scale :=
      Nat.mul_le_mul_right _ htwo
    rw [Nat.add_mul] at hsteps
    rw [bounds_snd, bounds_fst, ← hscale] at heq
    split at heq <;> omega

/-- A number of a greater scale is above all numbers of the scale. -/
theorem not_covers_of_scale_lt (hlt : x.scale < y.scale) (hx : x.Covers q) : ¬y.Covers q := by
  obtain ⟨k, hk⟩ := Nat.exists_eq_add_of_lt hlt
  have hpow : 2 ^ y.scale = 2 * (2 ^ x.scale * 2 ^ k) := by
    rw [hk, Nat.pow_succ, Nat.pow_add]
    omega
  have hpos : 0 < 2 ^ x.scale := Nat.two_pow_pos _
  have hfactor : 2 ^ x.scale ≤ 2 ^ x.scale * 2 ^ k := Nat.le_mul_of_pos_right _ (Nat.two_pow_pos k)
  have hnormal : 2 ^ 52 ≤ y.significand := by
    obtain hzero | hnormal := y.canonical.2.2
    · omega
    · exact hnormal
  have hfst : (2 ^ 55 - 2) * (2 ^ x.scale * 2 ^ k) ≤ y.bounds.1 := by
    rw [bounds_fst, hpow]
    split
    · next h =>
      rw [h.1]
      omega
    · next h =>
      have hy : (2 ^ 52 + 1) * (2 * (2 ^ x.scale * 2 ^ k)) ≤
          y.significand * (2 * (2 ^ x.scale * 2 ^ k)) :=
        Nat.mul_le_mul_right _ (by omega)
      omega
  have hbound (m : Nat) (hm : x.significand ≤ m) :
      x.significand * 2 ^ x.scale ≤ m * 2 ^ x.scale :=
    Nat.mul_le_mul_right _ hm
  have hsignificand : x.significand < 2 ^ 53 := x.canonical.1
  refine not_covers_of_le ?_ ?_ hx
  · have hx' := hbound (2 ^ 53 - 1) (by omega)
    rw [bounds_snd]
    omega
  · -- The greatest significand is odd, so an even number ends below the interval of the other.
    intro heq heven
    have hx' := hbound (2 ^ 53 - 2) (by omega)
    rw [bounds_snd] at heq
    omega

/-- No real rounds to two magnitudes. -/
theorem eq_of_covers (hx : x.Covers q) (hy : y.Covers q) (hsign : x.negative = y.negative) :
    x = y := by
  have hscale : x.scale = y.scale := by
    obtain hlt | heq | hgt := Nat.lt_trichotomy x.scale y.scale
    · exact absurd hy (not_covers_of_scale_lt hlt hx)
    · exact heq
    · exact absurd hx (not_covers_of_scale_lt hgt hy)
  have hsignificand : x.significand = y.significand := by
    obtain hlt | heq | hgt := Nat.lt_trichotomy x.significand y.significand
    · exact absurd hy (not_covers_of_significand_lt hscale hlt hx)
    · exact heq
    · exact absurd hx (not_covers_of_significand_lt hscale.symm hgt hy)
  cases x
  cases y
  simp_all

end Schemata.Binary64
