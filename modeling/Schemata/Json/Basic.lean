import Schemata.Datum
/-!
# JSON values

JSON values as trees, their compact and their indented text. Members keep their order. A whole
number and a floating-point number are different values, and their texts differ.
-/

namespace Schemata

inductive Json where
  | null
  | bool (value : Bool)
  | int (value : Int)
  | float (value : Binary64)
  | text (value : String)
  | array (items : List Json)
  | object (members : List (String × Json))

namespace Json

mutual

/-- The value as plain data. -/
def toDatum : Json → Datum
  | .null => .null
  | .bool value => .bool value
  | .int value => .int value
  | .float value => .float value
  | .text value => .text value
  | .array items => .list (itemsToData items)
  | .object members => .record (membersToData members)

def itemsToData : List Json → List Datum
  | [] => []
  | item :: items => item.toDatum :: itemsToData items

def membersToData : List (String × Json) → List (Datum × Datum)
  | [] => []
  | (name, value) :: members => (.text name, value.toDatum) :: membersToData members

end

/-- A text as a JSON string, or `null`. -/
def ofOption {α : Type} (encode : α → Json) : Option α → Json
  | none => .null
  | some a => encode a

def ofList {α : Type} (encode : α → Json) (items : List α) : Json :=
  .array (items.map encode)

/-- One character inside a string: the two characters that would end or escape it and the controls
are escaped, all others stand for themselves. -/
def escapeChar (c : Char) : List Char :=
  if c = '"' then ['\\', '"']
  else if c = '\\' then ['\\', '\\']
  else if c = '\x08' then ['\\', 'b']
  else if c = '\x0c' then ['\\', 'f']
  else if c = '\n' then ['\\', 'n']
  else if c = '\r' then ['\\', 'r']
  else if c = '\t' then ['\\', 't']
  else if c.toNat < 0x20 then
    ['\\', 'u', '0', '0', Nat.digitChar (c.toNat / 16), Nat.digitChar (c.toNat % 16)]
  else [c]

/-- A string behind its opening quote, closing quote included. -/
def stringBody : List Char → List Char
  | [] => ['"']
  | c :: cs => escapeChar c ++ stringBody cs

def stringText (s : String) : List Char := '"' :: stringBody s.toList

/-- The text of a value without parts. -/
def scalarText : Json → List Char
  | .bool true => ['t', 'r', 'u', 'e']
  | .bool false => ['f', 'a', 'l', 's', 'e']
  | .int value => (toString value).toList
  | .float value => (NumberLayout.canonical.render value).toList
  | .text value => stringText value
  | _ => ['n', 'u', 'l', 'l']

mutual

/-- The text without any blank. -/
def compactChars : Json → List Char
  | .array [] => ['[', ']']
  | .array (item :: items) => '[' :: (item.compactChars ++ itemsTail items)
  | .object [] => ['\x7b', '\x7d']
  | .object ((name, value) :: members) =>
    '\x7b' :: (stringText name ++ ':' :: (value.compactChars ++ membersTail members))
  | scalar => scalarText scalar

/-- The items behind the first one, and the end of the array. -/
def itemsTail : List Json → List Char
  | [] => [']']
  | item :: items => ',' :: (item.compactChars ++ itemsTail items)

def membersTail : List (String × Json) → List Char
  | [] => ['\x7d']
  | (name, value) :: members =>
    ',' :: (stringText name ++ ':' :: (value.compactChars ++ membersTail members))

end

def compact (j : Json) : String := .ofList j.compactChars

/-- A new line at a depth of nesting. -/
def newLine (depth : Nat) : List Char := '\n' :: List.replicate (2 * depth) ' '

mutual

/-- The text with each item and each member on a line of its own, at a depth of nesting. -/
def indentedChars (depth : Nat) : Json → List Char
  | .array [] => ['[', ']']
  | .array (item :: items) =>
    '[' :: (newLine (depth + 1) ++ item.indentedChars (depth + 1) ++ indentedItems depth items)
  | .object [] => ['\x7b', '\x7d']
  | .object ((name, value) :: members) =>
    '\x7b' :: (newLine (depth + 1) ++ stringText name ++ ':' :: ' ' ::
      (value.indentedChars (depth + 1) ++ indentedMembers depth members))
  | scalar => scalarText scalar

def indentedItems (depth : Nat) : List Json → List Char
  | [] => newLine depth ++ [']']
  | item :: items =>
    ',' :: (newLine (depth + 1) ++ item.indentedChars (depth + 1) ++ indentedItems depth items)

def indentedMembers (depth : Nat) : List (String × Json) → List Char
  | [] => newLine depth ++ ['\x7d']
  | (name, value) :: members =>
    ',' :: (newLine (depth + 1) ++ stringText name ++ ':' :: ' ' ::
      (value.indentedChars (depth + 1) ++ indentedMembers depth members))

end

def indented (j : Json) : String := .ofList (j.indentedChars 0)

end Json
end Schemata
