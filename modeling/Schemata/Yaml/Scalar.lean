import Schemata.Datum
import Schemata.Text.Blank
import Schemata.Yaml.Node
/-!
# Plain scalars as values

A scalar without quotes is nothing, a truth value, a whole number or a floating-point number if it
looks like one, and otherwise a text. Whole numbers fit 64 bits; numbers without bound are texts.
White space around a truth value or a number says nothing.
-/

namespace Schemata.Yaml.Scalar

/-- The truth value that a text names, in any mix of letter cases. -/
def bool? (text : String) : Option Bool :=
  let word := (Text.trim text).toLower
  if word ∈ ["y", "yes", "true", "on"] then some true
  else if word ∈ ["n", "no", "false", "off"] then some false
  else none

/-- The value of a digit in a base of at most sixteen. -/
def digit? (base : Nat) (c : Char) : Option Nat :=
  let value :=
    if '0' ≤ c ∧ c ≤ '9' then c.toNat - '0'.toNat
    else if 'a' ≤ c ∧ c ≤ 'f' then c.toNat - 'a'.toNat + 10
    else if 'A' ≤ c ∧ c ≤ 'F' then c.toNat - 'A'.toNat + 10
    else base
  if value < base then some value else none

/-- The number of a text of digits, between which `_` may stand. -/
def digits? (base : Nat) (cs : List Char) : Option Nat :=
  match cs.filter (· ≠ '_') with
  | [] => none
  | ds => ds.foldlM (fun n c => (digit? base c).map (base * n + ·)) 0

/-- The number of a text of digits, in the base that its first two characters may say. -/
def natural? : List Char → Option Nat
  | '0' :: x :: cs =>
    if x = 'x' ∨ x = 'X' then digits? 16 cs
    else if x = 'o' ∨ x = 'O' then digits? 8 cs
    else if x = 'b' ∨ x = 'B' then digits? 2 cs
    else digits? 10 ('0' :: x :: cs)
  | cs => digits? 10 cs

/-- Whether digits begin with a zero that says nothing. -/
def isPadded : List Char → Bool
  | '0' :: c :: cs => c.isDigit && !((c :: cs).all (· = '0'))
  | _ => false

/-- The whole number that a text writes. A negative one has no zeros in front. -/
def int? (cs : List Char) : Option Int :=
  match cs with
  | '-' :: cs =>
    if isPadded cs then none
    else (natural? cs).bind fun n => if Int64.minValue.toInt ≤ -n then some (-n) else none
  | '+' :: cs => (natural? cs).bind fun n => if n < UInt64.size then some (n : Int) else none
  | cs => (natural? cs).bind fun n => if n < UInt64.size then some (n : Int) else none

/-- A sign and what follows it. -/
def splitSign : List Char → Bool × List Char
  | '-' :: cs => (true, cs)
  | '+' :: cs => (false, cs)
  | cs => (false, cs)

/-- The exponent that a text writes behind its letter; zero if the text is empty. -/
def exponent? : List Char → Option Int
  | [] => some 0
  | e :: cs =>
    if e = 'e' ∨ e = 'E' then
      let (negative, digits) := splitSign cs
      if digits.isEmpty ∨ !digits.all Char.isDigit then none
      else (digits? 10 digits).map fun n => if negative then -(n : Int) else n
    else none

/-- The magnitude that a text writes as a decimal, as digits and a power of ten. -/
def decimal? (cs : List Char) : Option (Nat × Int) :=
  let whole := cs.takeWhile Char.isDigit
  let rest := cs.drop whole.length
  let fraction :=
    match rest with
    | '.' :: rest => rest.takeWhile Char.isDigit
    | _ => []
  let rest :=
    match rest with
    | '.' :: rest => rest.drop fraction.length
    | rest => rest
  match digits? 10 (whole ++ fraction), exponent? rest with
  | some digits, some exponent => some (digits, exponent - fraction.length)
  | _, _ => none

/-- The text of an infinity. -/
def infinity (negative : Bool) : String := if negative then "-.inf" else ".inf"

/-- The floating-point number that a text writes. Beyond all bounds it is the text of an infinity,
and what is no number at all has a text of its own too. -/
def float? (text : String) : Option Datum :=
  let (negative, cs) := splitSign text.toList
  let word := (String.ofList cs).toLower
  if word ∈ [".inf", "inf", "infinity"] then some (.text (infinity negative))
  else if word ∈ [".nan", "nan"] then some (.text ".nan")
  else
    (decimal? cs).map fun (digits, exponent) =>
      match Binary64.ofDecimal? negative digits exponent with
      | some value => .float value
      | none => .text (infinity negative)

/-- The value of a plain scalar. -/
def value (text : String) : Datum :=
  if Node.isNullText text then .null
  else
    let trimmed := Text.trim text
    match bool? trimmed, int? trimmed.toList, float? trimmed with
    | some b, _, _ => .bool b
    | none, some n, _ => .int n
    | none, none, some d => d
    | none, none, none => .text text

end Schemata.Yaml.Scalar
