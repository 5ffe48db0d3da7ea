/-!
# Binary floating-point numbers

The finite numbers of the 64-bit binary format, as a sign and a whole number of units of
`2 ^ -1074`. Each number has one representation, the two zeros differ, and there is neither an
infinity nor a NaN: an operation that leaves the range gives `none`.
-/

namespace Schemata

/-- The number `± significand * 2 ^ scale` in units of `2 ^ -1074`. -/
structure Binary64 where
  negative : Bool
  significand : Nat
  scale : Nat
  canonical : significand < Nat.pow 2 53 ∧ scale ≤ 2045 ∧ (scale = 0 ∨ Nat.pow 2 52 ≤ significand)
deriving DecidableEq

namespace Binary64

/-- How many units make one. -/
@[irreducible] def unitsPerOne : Nat := Nat.pow 2 1074

/-- The quotient rounded to a whole number, a half going to the even neighbour. -/
def roundEven (num den : Nat) : Nat :=
  let q := num / den
  let r := 2 * (num % den)
  if r < den then q else if den < r then q + 1 else q + q % 2

/-- The zero of a sign. -/
def zero (negative : Bool) : Binary64 :=
  ⟨negative, 0, 0, by decide⟩

instance : Inhabited Binary64 := ⟨zero false⟩

def isZero (x : Binary64) : Bool := x.significand == 0

/-- The number nearest to `± num / den`, of two equally near ones the even one; `none` when it
lies beyond the largest number. -/
def nearest (negative : Bool) (num den : Nat) : Option Binary64 :=
  let units := num * unitsPerOne
  let scale := (units / den).log2 + 1 - 53
  let m := roundEven units (den * Nat.pow 2 scale)
  -- Rounding up may carry into the next power of two.
  let (significand, scale) := if m = Nat.pow 2 53 then (Nat.pow 2 52, scale + 1) else (m, scale)
  if h : significand < Nat.pow 2 53 ∧ scale ≤ 2045 ∧
      (scale = 0 ∨ Nat.pow 2 52 ≤ significand) then
    some ⟨negative, significand, scale, h⟩
  else
    none

/-- The magnitude in units of `2 ^ -1074`. -/
def units (x : Binary64) : Nat := x.significand * Nat.pow 2 x.scale

def ofNat? (n : Nat) : Option Binary64 := nearest false n 1

/-- The product, rounded to the nearest number; `none` when it is out of range. -/
def mul? (x y : Binary64) : Option Binary64 :=
  nearest (x.negative != y.negative) (x.units * y.units) (Nat.pow 2 2148)

/-- The quotient, rounded to the nearest number; `none` when it is out of range. -/
def div? (x y : Binary64) : Option Binary64 :=
  if y.isZero then none else nearest (x.negative != y.negative) x.units y.units

def withSign (negative : Bool) (x : Binary64) : Binary64 := { x with negative }

/-- The number nearest to `± digits * 10 ^ exponent`; `none` when it is out of range. Powers of
ten so large or so small that they settle the answer are not computed. -/
def ofDecimal? (negative : Bool) (digits : Nat) (exponent : Int) : Option Binary64 :=
  if digits = 0 then some (zero negative)
  else
    let magnitude := (Nat.toDigits 10 digits).length + exponent
    if 400 < magnitude then none
    else if magnitude < -400 then some (zero negative)
    else nearest negative (digits * Nat.pow 10 exponent.toNat) (Nat.pow 10 (-exponent).toNat)

end Binary64
end Schemata
