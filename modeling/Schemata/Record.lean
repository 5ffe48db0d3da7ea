import Schemata.Datum
/-!
# Records

Reading a record by the declarations of its fields. A record is written as a map from field names
to values, or as the list of the values in the order of declaration. Of a map, the faults of the
fields that are present come first, in the order of the text; then the fields that are missing
are looked at, in the order of declaration.
-/

namespace Schemata

/-- What a field is when it is not there. -/
inductive Presence (α : Type) where
  | required
  /-- Missing from a map it has this value; from a list it may not be missing. -/
  | inMap (value : α)
  | defaulted (value : α)

structure Field (α : Type) where
  name : String
  read : Datum.Reader α
  presence : Presence α

namespace Field

def required {α : Type} (name : String) (read : Datum.Reader α) : Field α :=
  ⟨name, read, .required⟩

def defaulted {α : Type} (name : String) (read : Datum.Reader α) (value : α) : Field α :=
  ⟨name, read, .defaulted value⟩

/-- A field that may be `null`, or be missing from a map. -/
def nullable {α : Type} (name : String) (read : Datum.Reader α) : Field (Option α) :=
  ⟨name, Datum.readOption read, .inMap none⟩

/-- A field that may be `null` or missing. -/
def optional {α : Type} (name : String) (read : Datum.Reader α) : Field (Option α) :=
  ⟨name, Datum.readOption read, .defaulted none⟩

end Field

/-- The fields of a record, in the order of their declaration. -/
inductive Fields : List Type → Type 1 where
  | nil : Fields []
  | cons {α : Type} {αs : List Type} (field : Field α) (rest : Fields αs) : Fields (α :: αs)

/-- One value of each type. -/
@[reducible] def Tuple : List Type → Type
  | [] => Unit
  | α :: αs => α × Tuple αs

/-- The values that were found so far, for each field. -/
@[reducible] def Slots : List Type → Type
  | [] => Unit
  | α :: αs => Option α × Slots αs

namespace Fields

def names : {αs : List Type} → Fields αs → List String
  | _, .nil => []
  | _, .cons field rest => field.name :: rest.names

def noSlots : {αs : List Type} → Fields αs → Slots αs
  | _, .nil => ()
  | _, .cons _ rest => (none, rest.noSlots)

/-- Reads the value of the field of a name into its slot. A name of no field is passed over. -/
def store : {αs : List Type} → Fields αs → String → Datum → Slots αs → Except Fault (Slots αs)
  | _, .nil, _, _, slots => .ok slots
  | _, .cons field rest, name, d, (slot, slots) =>
    if name = field.name then
      match slot with
      | some _ => .error (.duplicateField name)
      | none => (field.read d).map fun a => (some a, slots)
    else
      (rest.store name d slots).map fun slots => (slot, slots)

/-- The field name of a key: the text itself, or the name at a position. -/
def keyName (names : List String) : Datum → Except Fault (Option String)
  | .text name => .ok (some name)
  | .int n => if 0 ≤ n then .ok names[n.toNat]? else Datum.unexpected (.int n) "field identifier"
  | d => d.unexpected "field identifier"

def storeAll {αs : List Type} (fields : Fields αs) :
    List (Datum × Datum) → Slots αs → Except Fault (Slots αs)
  | [], slots => .ok slots
  | (key, d) :: entries, slots => do
    match ← keyName fields.names key with
    | some name => fields.storeAll entries (← fields.store name d slots)
    | none => fields.storeAll entries slots

/-- The record, once each entry has been read. -/
def complete : {αs : List Type} → Fields αs → Slots αs → Except Fault (Tuple αs)
  | _, .nil, _ => .ok ()
  | _, .cons field rest, (slot, slots) => do
    let a ←
      match slot, field.presence with
      | some a, _ => .ok a
      | none, .required => .error (.missingField field.name)
      | none, .inMap a => .ok a
      | none, .defaulted a => .ok a
    return (a, ← rest.complete slots)

/-- The record from the list of its values, `taken` of which have been read before. -/
def ofItems (type : String) (total : Nat) :
    {αs : List Type} → Fields αs → (taken : Nat) → List Datum → Except Fault (Tuple αs)
  | _, .nil, _, [] => .ok ()
  | _, .nil, taken, d :: ds => .error (.tooLong (taken + (d :: ds).length) taken false)
  | _, .cons field rest, taken, d :: ds => do
    let a ← field.read d
    return (a, ← rest.ofItems type total (taken + 1) ds)
  | _, .cons field rest, taken, [] => do
    let a ←
      match field.presence with
      | .defaulted a => .ok a
      | _ => .error (.tooShort taken type total)
    return (a, ← rest.ofItems type total (taken + 1) [])

/-- Reads a record of a type from a map or a list. -/
def read {αs : List Type} (type : String) (fields : Fields αs) : Datum.Reader (Tuple αs)
  | .record entries => do fields.complete (← fields.storeAll entries fields.noSlots)
  | .list items => fields.ofItems type fields.names.length 0 items
  | d => d.unexpected s!"struct {type}"

end Fields
end Schemata
