import Schemata.Fault
/-!
# Data

The untyped data that graphs, schemas and configurations are read from, whatever text they came
from, and the readers of single values. A reader gives the value or the first fault in it.
-/

namespace Schemata

/-- A tree of plain data. Entries of a record keep their order and may repeat. -/
inductive Datum where
  | null
  | bool (value : Bool)
  | int (value : Int)
  | float (value : Binary64)
  | text (value : String)
  | list (items : List Datum)
  | record (entries : List (Datum × Datum))

namespace Datum

/-- A reader of values of a type. -/
abbrev Reader (α : Type) := Datum → Except Fault α

def found : Datum → Found
  | .null => .null
  | .bool value => .bool value
  | .int value => .int value
  | .float value => .float value
  | .text value => .text value
  | .list _ => .sequence
  | .record _ => .map

def unexpected {α : Type} (d : Datum) (expected : String) : Except Fault α :=
  .error (.invalidType d.found expected)

def readBool : Reader Bool
  | .bool value => .ok value
  | d => d.unexpected "a boolean"

/-- A text where `expected` is wanted. -/
def readTextAs (expected : String) : Reader String
  | .text value => .ok value
  | d => d.unexpected expected

def readText : Reader String := readTextAs "a string"

def readPath : Reader String := readTextAs "path string"

def readUInt32 : Reader UInt32
  | .int value =>
    if 0 ≤ value ∧ value < UInt32.size then .ok (UInt32.ofNat value.toNat)
    else .error (.invalidValue (.int value) "u32")
  | d => d.unexpected "u32"

/-- The values of a list in order, or the first fault among them. -/
def readEach {α : Type} (read : Reader α) : List Datum → Except Fault (List α)
  | [] => .ok []
  | d :: ds => do
    let a ← read d
    return a :: (← readEach read ds)

def readList {α : Type} (read : Reader α) : Reader (List α)
  | .list items => readEach read items
  | d => d.unexpected "a sequence"

/-- `null` is no value. -/
def readOption {α : Type} (read : Reader α) : Reader (Option α)
  | .null => .ok none
  | d => (read d).map some

/-- The value that a name stands for among the named values of a type. -/
def ofName {α : Type} (named : List (String × α)) (name : String) : Except Fault α :=
  match named.lookup name with
  | some a => .ok a
  | none => .error (.unknownVariant name (named.map (·.1)))

/-- One of a closed set of values by its name, which may also be the one key of a record with
nothing behind it, as far as `isNothing` says. -/
def readNamedWith {α : Type} (isNothing : Datum → Bool) (named : List (String × α)) : Reader α
  | .text name => ofName named name
  | .record [(key, value)] => do
    let name ← readTextAs "variant identifier" key
    let a ← ofName named name
    if isNothing value then return a else value.unexpected "unit"
  | .record _ => .error (.invalidValue .map "map with a single key")
  | d => d.unexpected "string or map"

def isNull : Datum → Bool
  | .null => true
  | _ => false

/-- One of a closed set of values by its name, or by a record with `null` behind the name. -/
def readNamed {α : Type} : List (String × α) → Reader α := readNamedWith isNull

end Datum
end Schemata
