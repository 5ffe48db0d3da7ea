import Schemata.Json.Number
/-!
# Reading JSON texts

The readers take a text from the front and give the value and the rest of the text, or the first
error. Values that are kept nest at most 127 deep; values that are passed over nest freely, and
their strings and numbers need only be well formed.
-/

namespace Schemata.Json

/-- A reader of something at the front of a text. -/
abbrev Step (α : Type) := List Char → Except Error (α × List Char)

def isSpace (c : Char) : Bool := c = ' ' || c = '\n' || c = '\t' || c = '\r'

def skipSpace (cs : List Char) : List Char := cs.dropWhile isSpace

/-- The rest of a word whose first letter has been seen. -/
def readWord : List Char → List Char → Except Error (List Char)
  | [], cs => .ok cs
  | _ :: _, [] => .error .truncated
  | w :: ws, c :: cs => if c = w then readWord ws cs else .error .malformed

def hexValue? (c : Char) : Option Nat :=
  if '0' ≤ c ∧ c ≤ '9' then some (c.toNat - '0'.toNat)
  else if 'a' ≤ c ∧ c ≤ 'f' then some (c.toNat - 'a'.toNat + 10)
  else if 'A' ≤ c ∧ c ≤ 'F' then some (c.toNat - 'A'.toNat + 10)
  else none

/-- The value of the four hexadecimal digits of an escape. -/
def hexUnit? (a b c d : Char) : Option Nat := do
  return ((← hexValue? a) * 16 + (← hexValue? b)) * 256 + (← hexValue? c) * 16 + (← hexValue? d)

/-- The error of an escape that has no four hexadecimal digits. The text counts as ended if fewer
than four bytes are left. -/
def hexError (cs : List Char) : Error :=
  if (String.ofList (cs.take 4)).utf8ByteSize < 4 then .truncated else .malformed

def isHighSurrogate (n : Nat) : Bool := 0xD800 ≤ n && n ≤ 0xDBFF

def isLowSurrogate (n : Nat) : Bool := 0xDC00 ≤ n && n ≤ 0xDFFF

/-- The character that two surrogates stand for. -/
def joinSurrogates (high low : Nat) : Char :=
  .ofNat (0x10000 + (high - 0xD800) * 0x400 + (low - 0xDC00))

def simpleEscape? (c : Char) : Option Char :=
  match c with
  | '"' => some '"'
  | '\\' => some '\\'
  | '/' => some '/'
  | 'b' => some '\x08'
  | 'f' => some '\x0c'
  | 'n' => some '\n'
  | 'r' => some '\r'
  | 't' => some '\t'
  | _ => none

/-- Puts a character in front of a string that was read behind it. -/
def consChar (c : Char) (r : Except Error (List Char × List Char)) :
    Except Error (List Char × List Char) :=
  r.map fun (s, rest) => (c :: s, rest)

/-- A string behind its opening quote. -/
def readStringBody (care : Care) : Step (List Char)
  | [] => .error .truncated
  | '"' :: rest => .ok ([], rest)
  | '\\' :: 'u' :: a :: b :: c :: d :: rest =>
    match hexUnit? a b c d with
    | none => .error (hexError (a :: b :: c :: d :: rest))
    | some unit =>
      -- A string that is passed over is never shown, so any character will do.
      if care = .skipped then consChar '?' (readStringBody care rest)
      else if isLowSurrogate unit then .error .malformed
      else if isHighSurrogate unit then
        match rest with
        | [] => .error .truncated
        | '\\' :: [] => .error .truncated
        | '\\' :: 'u' :: e :: f :: g :: h :: rest =>
          match hexUnit? e f g h with
          | none => .error (hexError (e :: f :: g :: h :: rest))
          | some low =>
            if isLowSurrogate low then
              consChar (joinSurrogates unit low) (readStringBody care rest)
            else .error .malformed
        | '\\' :: 'u' :: cs => .error (hexError cs)
        | _ => .error .malformed
      else consChar (.ofNat unit) (readStringBody care rest)
  | '\\' :: 'u' :: cs => .error (hexError cs)
  | '\\' :: c :: rest =>
    match simpleEscape? c with
    | some c => consChar c (readStringBody care rest)
    | none => .error .malformed
  | '\\' :: [] => .error .truncated
  | c :: rest =>
    if c.toNat < 0x20 then .error .malformed else consChar c (readStringBody care rest)

def readString (care : Care) (cs : List Char) : Except Error (String × List Char) :=
  (readStringBody care cs).map fun (s, rest) => (.ofList s, rest)

/-- The colon between a name and a value. -/
def readColon (cs : List Char) : Except Error (List Char) :=
  match skipSpace cs with
  | [] => .error .truncated
  | ':' :: rest => .ok rest
  | _ => .error .malformed

/-- The name of a member, without the colon behind it. -/
def readKey (care : Care) (cs : List Char) : Except Error (String × List Char) :=
  match skipSpace cs with
  | [] => .error .truncated
  | '"' :: rest => readString care rest
  | _ => .error .malformed

/-- The name of a member and the colon behind it. -/
def readName (care : Care) (cs : List Char) : Except Error (String × List Char) := do
  let (name, rest) ← readKey care cs
  return (name, ← readColon rest)

/-- A value that is no array and no object, from its first character. -/
def readScalar (care : Care) : Step Json
  | [] => .error .truncated
  | '"' :: rest => (readString care rest).map fun (s, rest) => (.text s, rest)
  | 'n' :: rest => (readWord ['u', 'l', 'l'] rest).map (Json.null, ·)
  | 't' :: rest => (readWord ['r', 'u', 'e'] rest).map (Json.bool true, ·)
  | 'f' :: rest => (readWord ['a', 'l', 's', 'e'] rest).map (Json.bool false, ·)
  | c :: rest =>
    if c = '-' ∨ isDigit c then readNumber care (c :: rest) else .error .malformed

mutual

/-- The value at the front of a text, with room for `depth` more levels of nesting. The recursion
is bounded by `fuel`, which the length of the text always covers. -/
def readValueWith (care : Care) : (fuel depth : Nat) → Step Json
  | 0, _, _ => .error .malformed
  | fuel + 1, depth, cs =>
    match skipSpace cs with
    | '[' :: rest =>
      if care = .kept ∧ depth = 0 then .error .malformed
      else
        match skipSpace rest with
        | ']' :: rest => .ok (.array [], rest)
        | _ => do
          let (item, rest) ← readValueWith care fuel (depth - 1) rest
          let (items, rest) ← readItemsTail care fuel (depth - 1) rest
          return (.array (item :: items), rest)
    | '\x7b' :: rest =>
      if care = .kept ∧ depth = 0 then .error .malformed
      else
        match skipSpace rest with
        | '\x7d' :: rest => .ok (.object [], rest)
        | _ => do
          let (name, rest) ← readName care rest
          let (value, rest) ← readValueWith care fuel (depth - 1) rest
          let (members, rest) ← readMembersTail care fuel (depth - 1) rest
          return (.object ((name, value) :: members), rest)
    | cs => readScalar care cs

/-- The items behind the first one, up to the end of the array. -/
def readItemsTail (care : Care) : (fuel depth : Nat) → Step (List Json)
  | 0, _, _ => .error .malformed
  | fuel + 1, depth, cs =>
    match skipSpace cs with
    | [] => .error .truncated
    | ']' :: rest => .ok ([], rest)
    | ',' :: rest => do
      let (item, rest) ← readValueWith care fuel depth rest
      let (items, rest) ← readItemsTail care fuel depth rest
      return (item :: items, rest)
    | _ => .error .malformed

/-- The members behind the first one, up to the end of the object. -/
def readMembersTail (care : Care) : (fuel depth : Nat) → Step (List (String × Json))
  | 0, _, _ => .error .malformed
  | fuel + 1, depth, cs =>
    match skipSpace cs with
    | [] => .error .truncated
    | '\x7d' :: rest => .ok ([], rest)
    | ',' :: rest => do
      let (name, rest) ← readName care rest
      let (value, rest) ← readValueWith care fuel depth rest
      let (members, rest) ← readMembersTail care fuel depth rest
      return ((name, value) :: members, rest)
    | _ => .error .malformed

end

/-- The value at the front of a text. -/
def readValue (care : Care) (depth : Nat) (cs : List Char) : Except Error (Json × List Char) :=
  readValueWith care (cs.length + 1) depth cs

/-- How deep the values of a text may nest. -/
def maxDepth : Nat := 127

/-- Nothing but space is left. -/
def readEnd (cs : List Char) : Except Error Unit :=
  if (skipSpace cs).isEmpty then .ok () else .error .malformed

/-- The value of a whole text. -/
def ofText (s : String) : Except Error Json := do
  let (j, rest) ← readValue .kept maxDepth s.toList
  readEnd rest
  return j

/-- The error at a value that is not the `expected` one: its own error if a value without parts is
not well formed, otherwise what was found instead. -/
def mismatchAt (expected : String) (cs : List Char) : Error :=
  match cs with
  | '[' :: _ => .mismatch (.invalidType .sequence expected)
  | '\x7b' :: _ => .mismatch (.invalidType .map expected)
  | _ =>
    match readScalar .kept cs with
    | .error e => e
    | .ok (j, _) => .mismatch (.invalidType j.toDatum.found expected)

end Schemata.Json
