import Schemata.Text.Base64
import Schemata.Yaml.Merge
import Schemata.Yaml.Scalar
/-!
# Nodes as values

How a node is read: as plain data, where scalars are what they look like, or directly as the text
or the fields that are wanted, where a plain scalar keeps its text.
-/

namespace Schemata.Yaml.Node

/-- What was found where something else was expected. -/
def found (node : Node) : Found :=
  match node with
  | .scalar _ _ text => if node.isNull then .null else .text text
  | .sequence _ => .sequence
  | .mapping _ => .map

def unexpected {α : Type} (node : Node) (expected : String) : Except Error α :=
  .error (.mismatch (.invalidType node.found expected))

/-- The text of a scalar, which keeps its text however it looks. Only the tag of texts makes a
text of what stands for nothing; the tag of bytes makes the text of which they are written. -/
def readTextAs (expected : String) (node : Node) : Except Error String :=
  match node with
  | .scalar _ tag text =>
    if tag = .null || (tag ≠ .text && node.isNull) then node.unexpected expected
    else if tag = .binary then
      match Text.Base64.decodeText? text with
      | some text => .ok text
      | none => node.unexpected expected
    else if tag.admitsText then .ok text
    else node.unexpected expected
  | _ => node.unexpected expected

/-- Whether a scalar is what it looks like. -/
def isBare (style : Style) (tag : Tag) : Bool :=
  style = .plain &&
    match tag with
    | .untagged | .text | .other _ => true
    | _ => false

/-- A node whose collections are nested to some depth at most as plain data. -/
def toDatumWithin : (depth : Nat) → Node → Except Error Datum
  | _, node@(.scalar style tag text) =>
    if tag = .null then .ok .null
    else if isBare style tag then .ok (Scalar.value text)
    else (node.readTextAs "a scalar").map .text
  | depth + 1, .sequence items => do return .list (← items.mapM (toDatumWithin depth))
  | depth + 1, .mapping entries => do
    let entries ← (← merge entries).mapM fun (key, value) => do
      return (← toDatumWithin depth key, ← toDatumWithin depth value)
    return .record entries
  | 0, _ => .error .malformed

/-- The node as plain data. -/
def toDatum (node : Node) : Except Error Datum := toDatumWithin node.depth node

/-- No value at all, or what a reader makes of the node. -/
def readOption {α : Type} (read : Node → Except Error α) (node : Node) :
    Except Error (Option α) :=
  if node.isAbsent then .ok none else (read node).map some

/-- The fields of a record with the given names, by the texts of their keys; nothing is a record
without fields. A name occurs once, and what has none of the names has to be data all the same. -/
def readFields (type : String) (names : List String) (node : Node) :
    Except Error (List (String × Node)) :=
  match node with
  | .mapping entries => do
    let fields ← (← merge entries).mapM fun (key, value) => do
      let name ← key.readTextAs "field identifier"
      if name ∉ names then let _ ← value.toDatum
      return (name, value)
    let known := fields.filter (·.1 ∈ names)
    for name in names do
      if 1 < (known.map (·.1)).count name then .error (.mismatch (.duplicateField name))
    return known
  | node => if node.isNull then .ok [] else node.unexpected s!"struct {type}"

/-- Reads the field of a name, which has a value of its own if it is missing. -/
def readField {α : Type} (name : String) (read : Node → Except Error α) (value : α)
    (fields : List (String × Node)) : Except Error α :=
  match fields.lookup name with
  | some node => read node
  | none => .ok value

/-- Reads the field of a name, which may not be missing. -/
def requireField {α : Type} (name : String) (read : Node → Except Error α)
    (fields : List (String × Node)) : Except Error α :=
  match fields.lookup name with
  | some node => read node
  | none => .error (.mismatch (.missingField name))

/-- The items of a sequence; nothing is a sequence without items, and so are no bytes. -/
def readItems (node : Node) : Except Error (List Node) :=
  match node with
  | .sequence items => .ok items
  | .scalar _ .binary text =>
    match Text.Base64.decode? text with
    | some [] => .ok []
    | _ => node.unexpected "a sequence"
  | node => if node.isNull then .ok [] else node.unexpected "a sequence"

/-- One of the closed set of values of a type by its name, which may also be the one key of a
mapping with nothing behind it. A tag that says the name of a type has to say that of this one. -/
def readNamed {α : Type} (type : String) (named : List (String × α)) (node : Node) :
    Except Error α :=
  let ofName := fun name => (Datum.ofName named name).mapError .mismatch
  match node with
  | .scalar _ (.other tag) text =>
    if (Tag.typeName? tag).all (· = type) then ofName text else node.unexpected s!"enum {type}"
  | .scalar _ _ text => ofName text
  | .mapping [(.scalar _ _ name, value)] =>
    if value.isNull then ofName name else value.unexpected "unit"
  | _ => node.unexpected "string or map"

end Schemata.Yaml.Node
