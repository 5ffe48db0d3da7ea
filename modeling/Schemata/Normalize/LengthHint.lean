import Schemata.Text.Blank
/-!
# Length hints

The length that an SQL type such as `varchar(255)` states. The type is written in any letter case
and with blanks anywhere between its parts; what follows the closing parenthesis does not matter.
-/

namespace Schemata.LengthHint

/-- The names of the types that state a length, in lower case. -/
def typeNames : List (List Char) :=
  ["varchar".toList, "character varying".toList]

/-- The text behind a word, which may be written in any case of the ASCII letters. -/
def afterWord? : List Char → List Char → Option (List Char)
  | [], cs => some cs
  | _ :: _, [] => none
  | w :: ws, c :: cs => if c.toLower = w then afterWord? ws cs else none

/-- The text behind a character. -/
def afterChar? (c : Char) : List Char → Option (List Char)
  | [] => none
  | d :: cs => if d = c then some cs else none

def skipBlanks (cs : List Char) : List Char := cs.dropWhile Text.isBlank

def isDigit (c : Char) : Bool := '0' ≤ c && c ≤ '9'

/-- The number that decimal digits write. -/
def ofDigits (digits : List Char) : Nat :=
  digits.foldl (fun n c => 10 * n + (c.toNat - '0'.toNat)) 0

/-- The length that is stated behind the name of the type. -/
def argument? (cs : List Char) : Option UInt32 := do
  let cs ← afterChar? '(' (skipBlanks cs)
  let (digits, cs) := (skipBlanks cs).span isDigit
  let _ ← afterChar? ')' (skipBlanks cs)
  let n := ofDigits digits
  -- A length that does not fit is not stated at all.
  if digits.isEmpty ∨ UInt32.size ≤ n then none else some (UInt32.ofNat n)

/-- The length that an SQL type states, if it fits 32 bits. -/
def ofSqlType? (sqlType : String) : Option UInt32 := do
  let cs := skipBlanks sqlType.toList
  let rest ← typeNames.findSome? fun word => afterWord? word cs
  argument? rest

end Schemata.LengthHint
