import Schemata.Json.Basic
/-!
# Reading JSON numbers

A number without fraction and exponent is whole as long as it fits 64 bits. Any other is a
floating-point number: the leading digits that fit 64 bits, rounded, and then once multiplied or
divided by a power of ten, rounded again.
-/

namespace Schemata.Json

/-- Why a text is not the text of a value. -/
inductive Error where
  /-- A character that cannot stand where it stands. -/
  | malformed
  /-- The end of the text where more is needed. -/
  | truncated
  /-- The text is right so far, but what it says has the wrong shape. -/
  | mismatch (fault : Fault)

/-- What is done with a value that is read: one that nobody asked for is only passed over. -/
inductive Care where
  | kept
  | skipped
deriving DecidableEq

namespace Care

/-- The error at the end of the text inside a number. -/
def numberEnd : Care → Error
  | .kept => .truncated
  | .skipped => .malformed

end Care

def isDigit (c : Char) : Bool := '0' ≤ c && c ≤ '9'

def digitValue (c : Char) : Nat := c.toNat - '0'.toNat

/-- The number that decimal digits write. -/
def ofDigits (digits : List Char) : Nat :=
  digits.foldl (fun n c => 10 * n + digitValue c) 0

/-- A number as it is written. -/
structure Numeral where
  negative : Bool
  whole : List Char
  fraction : Option (List Char)
  exponent : Option Int

/-- Appends digits to a significand as long as the result fits 64 bits: the significand, and how
many digits were taken. -/
def gather (significand : Nat) : List Char → Nat × Nat
  | [] => (significand, 0)
  | c :: cs =>
    let next := 10 * significand + digitValue c
    if next < UInt64.size then
      let (significand, taken) := gather next cs
      (significand, taken + 1)
    else
      (significand, 0)

/-- The power of ten nearest to `10 ^ n`, for `n` up to 308. -/
def powerOfTen (n : Nat) : Binary64 := ((Binary64.ofNat? (Nat.pow 10 n)).getD (.zero false))

/-- `significand * 10 ^ exponent` in two roundings; `none` when it is out of range. Quotients by
`1e308` come first where one power of ten is not enough. -/
def scaled? (significand : Nat) (exponent : Int) : Option Binary64 := do
  let x ← Binary64.ofNat? significand
  if x.isZero then return x
  if 308 < exponent then none
  else if 0 ≤ exponent then x.mul? (powerOfTen exponent.toNat)
  else if -308 ≤ exponent then x.div? (powerOfTen (-exponent).toNat)
  else
    let y ← x.div? (powerOfTen 308)
    if -616 ≤ exponent then y.div? (powerOfTen (-(exponent + 308)).toNat)
    else return .zero false

namespace Numeral

/-- The value as a floating-point number; `none` when it is out of range. -/
def toFloat? (n : Numeral) : Option Binary64 := do
  -- Digits that do not fit count as zeros, but the fraction may still add to the rest.
  let (significand, taken) := gather 0 n.whole
  let dropped : Int := n.whole.length - taken
  let (significand, places) := gather significand (n.fraction.getD [])
  let x ← scaled? significand (dropped - places + n.exponent.getD 0)
  return x.withSign n.negative

/-- The value: whole if it is written so and fits 64 bits, where minus zero is not whole. -/
def toJson? (n : Numeral) : Option Json :=
  let magnitude := ofDigits n.whole
  let whole := n.fraction.isNone && n.exponent.isNone
  if whole && !n.negative && magnitude < UInt64.size then some (.int magnitude)
  else if whole && n.negative && magnitude ≠ 0 && Int64.minValue.toInt ≤ -magnitude then
    some (.int (-magnitude))
  else n.toFloat?.map .float

end Numeral

/-- Splits the digits at the front of a text off; there must be one. -/
def readDigits (care : Care) (cs : List Char) : Except Error (List Char × List Char) :=
  match cs with
  | [] => .error care.numberEnd
  | c :: _ => if isDigit c then .ok (cs.span isDigit) else .error .malformed

/-- The whole part: no other digit follows a zero in front. -/
def readWhole (care : Care) : List Char → Except Error (List Char × List Char)
  | '0' :: cs =>
    match cs with
    | [] => .ok (['0'], [])
    | c :: _ => if isDigit c then .error .malformed else .ok (['0'], cs)
  | cs => readDigits care cs

def readFraction (care : Care) : List Char → Except Error (Option (List Char) × List Char)
  | '.' :: cs => do
    let (digits, cs) ← readDigits care cs
    return (some digits, cs)
  | cs => .ok (none, cs)

def readExponent (care : Care) : List Char → Except Error (Option Int × List Char)
  | [] => .ok (none, [])
  | c :: cs =>
    if c = 'e' ∨ c = 'E' then do
      let (negative, cs) :=
        match cs with
        | '-' :: cs => (true, cs)
        | '+' :: cs => (false, cs)
        | cs => (false, cs)
      let (digits, cs) ← readDigits care cs
      let n : Int := ofDigits digits
      return (some (if negative then -n else n), cs)
    else
      .ok (none, c :: cs)

/-- The number at the front of a text. -/
def readNumeral (care : Care) (cs : List Char) : Except Error (Numeral × List Char) := do
  let (negative, cs) :=
    match cs with
    | '-' :: cs => (true, cs)
    | cs => (false, cs)
  let (whole, cs) ← readWhole care cs
  let (fraction, cs) ← readFraction care cs
  let (exponent, cs) ← readExponent care cs
  return (⟨negative, whole, fraction, exponent⟩, cs)

/-- The number at the front of a text. One that is kept may not be out of range. -/
def readNumber (care : Care) (cs : List Char) : Except Error (Json × List Char) := do
  let (n, cs) ← readNumeral care cs
  match n.toJson?, care with
  | some j, _ => return (j, cs)
  | none, .skipped => return (.null, cs)
  | none, .kept => .error .malformed

end Schemata.Json
