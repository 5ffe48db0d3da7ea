import Schemata.Number.Layout
import Schemata.Text.Printable
/-!
# Faults

What is wrong with data of the wrong shape, and the words for it.
-/

namespace Schemata

/-- What was found where something else was expected. -/
inductive Found where
  | null
  | bool (value : Bool)
  | int (value : Int)
  | float (value : Binary64)
  | text (value : String)
  | sequence
  | map

/-- Why a datum cannot be read as a value of some type. -/
inductive Fault where
  | missingField (name : String)
  | duplicateField (name : String)
  | invalidType (found : Found) (expected : String)
  | invalidValue (found : Found) (expected : String)
  | unknownVariant (name : String) (known : List String)
  | noVariant (type : String)
  /-- A list stands for a record of `fields` fields, but ends before one that has no default. -/
  | tooShort (length : Nat) (type : String) (fields : Nat)
  /-- A list stands for a record, but goes on behind its last field. Inside a tagged value the
  elements that were taken are counted. -/
  | tooLong (length taken : Nat) (tagged : Bool)

namespace Found

def describe : Found → String
  | .null => "null"
  | .bool value => s!"boolean `{value}`"
  | .int value => s!"integer `{value}`"
  | .float value => s!"floating point `{NumberLayout.canonical.render value}`"
  | .text value => s!"string {Text.shown value}"
  | .sequence => "sequence"
  | .map => "map"

end Found

namespace Fault

def elements (n : Nat) : String :=
  if n = 1 then "1 element" else s!"{n} elements"

/-- The known variants of an unknown one, in the order of their declaration. -/
def oneOf : List String → String
  | [] => "there are no variants"
  | [a] => s!"expected `{a}`"
  | [a, b] => s!"expected `{a}` or `{b}`"
  | names => "expected one of " ++ ", ".intercalate (names.map fun name => s!"`{name}`")

def message : Fault → String
  | .missingField name => s!"missing field `{name}`"
  | .duplicateField name => s!"duplicate field `{name}`"
  | .invalidType found expected => s!"invalid type: {found.describe}, expected {expected}"
  | .invalidValue found expected => s!"invalid value: {found.describe}, expected {expected}"
  | .unknownVariant name known => s!"unknown variant `{name}`, {oneOf known}"
  | .noVariant type => s!"data did not match any variant of untagged enum {type}"
  | .tooShort length type fields =>
    s!"invalid length {length}, expected struct {type} with {elements fields}"
  | .tooLong length taken tagged =>
    let expected := if tagged then s!"{elements taken} in sequence" else "fewer elements in array"
    s!"invalid length {length}, expected {expected}"

/-- The fault as it is told when the value stands inside a tagged one. -/
def inTagged : Fault → Fault
  | .tooLong length taken _ => .tooLong length taken true
  | fault => fault

end Fault
end Schemata
