import Schemata.Text.Blank
/-!
# Base64

Bytes written with 64 letters, digits and marks, four for each three bytes. White space between
them says nothing; what is left over at the end is filled up with `=`, and its spare bits are
zero, so that no two texts without white space stand for the same bytes.
-/

namespace Schemata.Text.Base64

/-- The six bits that a character stands for. -/
def sextet? (c : Char) : Option Nat :=
  if 'A' ≤ c ∧ c ≤ 'Z' then some (c.toNat - 'A'.toNat)
  else if 'a' ≤ c ∧ c ≤ 'z' then some (c.toNat - 'a'.toNat + 26)
  else if '0' ≤ c ∧ c ≤ '9' then some (c.toNat - '0'.toNat + 52)
  else if c = '+' then some 62
  else if c = '/' then some 63
  else none

/-- The low `n` bytes of a number, the highest first. -/
def bytesOf : (n : Nat) → Nat → List UInt8
  | 0, _ => []
  | n + 1, value => bytesOf n (value / 256) ++ [UInt8.ofNat value]

/-- The `n` bytes in front of the spare bits of some characters. -/
def group? (n : Nat) (cs : List Char) : Option (List UInt8) := do
  let value ← cs.foldlM (fun value c => (sextet? c).map (64 * value + ·)) 0
  let spare := Nat.pow 2 (6 * cs.length - 8 * n)
  if value % spare = 0 then some (bytesOf n (value / spare)) else none

def decodeLetters : List Char → Option (List UInt8)
  | [] => some []
  | [a, b, '=', '='] => group? 1 [a, b]
  | [a, b, c, '='] => group? 2 [a, b, c]
  | a :: b :: c :: d :: cs => do return (← group? 3 [a, b, c, d]) ++ (← decodeLetters cs)
  | _ => none

/-- The bytes that a text stands for. -/
def decode? (text : String) : Option (List UInt8) :=
  decodeLetters (text.toList.filter fun c => !isBlank c)

/-- The text of which a text holds the bytes in UTF-8. -/
def decodeText? (text : String) : Option String := do
  String.fromUTF8? ⟨(← decode? text).toArray⟩

end Schemata.Text.Base64
