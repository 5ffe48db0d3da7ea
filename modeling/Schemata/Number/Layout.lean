import Schemata.Number.Shortest
/-!
# The text of a number

A number is written with the fewest digits that read back as it. Canonical texts keep a point
and turn to an exponent far from one; plain texts are always positional.
-/

namespace Schemata

/-- The decisions of a way of writing numbers. -/
structure NumberLayout where
  /-- The decimal exponents of the leading digit that are written positionally; all if `none`. -/
  positional : Option (Int × Int)
  /-- Whether a whole number keeps `.0`. -/
  pointZero : Bool
  tie : Tie

namespace NumberLayout

/-- Positional from `1e-5` up to but not including `1e+16`, with a point in every number that has
no exponent. -/
def canonical : NumberLayout where
  positional := some (-5, 16)
  pointZero := true
  tie := .toEven

/-- Never an exponent, and no point in a whole number. -/
def plain : NumberLayout where
  positional := none
  pointZero := false
  tie := .up

def isPositional (layout : NumberLayout) (exponent : Int) : Bool :=
  match layout.positional with
  | none => true
  | some (first, last) => first ≤ exponent && exponent < last

/-- The digits with the point after the first `point` of them, padded by zeros where it falls
outside. -/
def placePoint (layout : NumberLayout) (digits : List Char) (point : Int) : List Char :=
  if point ≤ 0 then
    '0' :: '.' :: (List.replicate (-point).toNat '0' ++ digits)
  else if digits.length ≤ point.toNat then
    digits ++ List.replicate (point.toNat - digits.length) '0' ++
      (if layout.pointZero then ['.', '0'] else [])
  else
    digits.take point.toNat ++ '.' :: digits.drop point.toNat

/-- One digit before the point, and the exponent with its sign. -/
def scientific (digits : List Char) (exponent : Int) : List Char :=
  let mantissa :=
    match digits with
    | [] => []
    | [d] => [d]
    | d :: ds => d :: '.' :: ds
  let sign := if exponent < 0 then '-' else '+'
  mantissa ++ 'e' :: sign :: Nat.toDigits 10 exponent.natAbs

def magnitude (layout : NumberLayout) (x : Binary64) : List Char :=
  if x.isZero then if layout.pointZero then ['0', '.', '0'] else ['0']
  else
    let decimal := x.shortest layout.tie
    let digits := Nat.toDigits 10 decimal.digits
    let point := digits.length + decimal.exponent
    if layout.isPositional (point - 1) then layout.placePoint digits point
    else scientific digits (point - 1)

/-- The number as text. -/
def render (layout : NumberLayout) (x : Binary64) : String :=
  .ofList (if x.negative then '-' :: layout.magnitude x else layout.magnitude x)

end NumberLayout
end Schemata
