import Schemata.Number.Binary64
/-!
# Shortest decimals

The decimal with the fewest digits that reads back as a given number, and of those with as few
digits the one nearest to it. All comparisons are exact, in whole numbers.
-/

namespace Schemata

/-- The decimal `digits * 10 ^ exponent`. -/
structure Decimal where
  digits : Nat
  exponent : Int
deriving DecidableEq, Repr

/-- Which of two equally near decimals is taken. -/
inductive Tie where
  | toEven
  | up
deriving DecidableEq, Repr

namespace Decimal

/-- Moves the trailing zeros of the digits into the exponent, at most `n` of them. -/
def stripZeros : Nat → Decimal → Decimal
  | 0, d => d
  | n + 1, d =>
    if d.digits ≠ 0 ∧ d.digits % 10 = 0 then stripZeros n ⟨d.digits / 10, d.exponent + 1⟩ else d

end Decimal

namespace Binary64

/-- The ends of the interval of reals that round to the magnitude, in quarters of a unit. Below a
power of two the neighbour is half as far away as above it. -/
def bounds (x : Binary64) : Nat × Nat :=
  let gap := 2 * Nat.pow 2 x.scale
  let below := if x.significand = Nat.pow 2 52 ∧ 0 < x.scale then Nat.pow 2 x.scale else gap
  (4 * x.units - below, 4 * x.units + gap)

/-- Whether the magnitude is below `10 ^ k`. -/
def belowPower (x : Binary64) (k : Int) : Bool :=
  x.units * Nat.pow 10 (-k).toNat < Nat.pow 10 k.toNat * unitsPerOne

/-- The least `k` with the magnitude below `10 ^ k`: estimated from the binary logarithm, and then
corrected by exact comparison. -/
def decimalPoint (x : Binary64) : Int :=
  let log := (x.units.log2 : Int) - 1074
  let estimate := log * 30103 / 100000
  if x.belowPower estimate then estimate
  else if x.belowPower (estimate + 1) then estimate + 1
  else estimate + 2

/-- What clears the fraction of a multiple of `10 ^ exponent`. -/
def gridUp (exponent : Int) : Nat := Nat.pow 10 (-exponent).toNat

/-- `10 ^ exponent` in units, cleared of its fraction by `gridUp`; of the two powers of ten, one is
`1`. -/
def gridStep (exponent : Int) : Nat := Nat.pow 10 exponent.toNat * unitsPerOne

/-- Whether `d * 10 ^ exponent` reads back as the magnitude. -/
def readsBackOn (x : Binary64) (exponent : Int) (d : Nat) : Bool :=
  let (low, high) := x.bounds
  let inclusive := x.significand % 2 = 0
  let point := 4 * d * gridStep exponent
  (low * gridUp exponent < point ∨ inclusive ∧ low * gridUp exponent = point) ∧
    (point < high * gridUp exponent ∨ inclusive ∧ point = high * gridUp exponent)

/-- The magnitude as a multiple of `10 ^ exponent`, rounded down. -/
def gridFloor (x : Binary64) (exponent : Int) : Nat :=
  x.units * gridUp exponent / gridStep exponent

/-- Whether the magnitude is nearer to `d * 10 ^ exponent` than to the next multiple. -/
def isNearer (x : Binary64) (tie : Tie) (exponent : Int) (d : Nat) : Bool :=
  let twice := 2 * (x.units * gridUp exponent)
  let middle := (2 * d + 1) * gridStep exponent
  twice < middle ∨ twice = middle ∧ tie = .toEven ∧ d % 2 = 0

/-- The decimal on the grid of step `10 ^ exponent` that reads back as the magnitude, if there is
one: the nearer of the two neighbours of the magnitude on that grid that do. -/
def onGrid? (tie : Tie) (x : Binary64) (exponent : Int) : Option Decimal :=
  let d := x.gridFloor exponent
  if x.readsBackOn exponent d then
    if x.isNearer tie exponent d || !x.readsBackOn exponent (d + 1) then some ⟨d, exponent⟩
    else some ⟨d + 1, exponent⟩
  else if x.readsBackOn exponent (d + 1) then some ⟨d + 1, exponent⟩
  else none

/-- The fewest digits that read back as the magnitude; seventeen are always enough. -/
def shortest (tie : Tie) (x : Binary64) : Decimal :=
  let point := x.decimalPoint
  let found := (List.range 17).findSome? fun (n : Nat) => x.onGrid? tie (point - (n + 1))
  (found.getD ⟨x.units, -1074⟩).stripZeros 400

end Binary64
end Schemata
