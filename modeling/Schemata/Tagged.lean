import Schemata.Record
/-!
# Tagged values

A value of one of several record types carries a tag that says which: as the entry `kind` of a
map, or as the first item of a list. The rest is read as that type.
-/

namespace Schemata.Datum

/-- The name of the entry that holds the tag. -/
def tagName : String := "kind"

/-- The tag, which is a text. -/
def readTag {κ : Type} (tag : String → Except Fault κ) (d : Datum) : Except Fault κ := do
  tag (← readTextAs "variant identifier" d)

/-- Takes the tag out of the entries of a map: the tag if there is one, and the other entries. -/
def splitTag {κ : Type} (tag : String → Except Fault κ) (seen : Option κ) :
    List (Datum × Datum) → Except Fault (Option κ × List (Datum × Datum))
  | [] => .ok (seen, [])
  | (.text key, d) :: entries =>
    if key = tagName then
      match seen with
      | some _ => .error (.duplicateField tagName)
      | none => do splitTag tag (some (← readTag tag d)) entries
    else
      (splitTag tag seen entries).map fun (t, rest) => (t, (.text key, d) :: rest)
  | entry :: entries => (splitTag tag seen entries).map fun (t, rest) => (t, entry :: rest)

/-- The tag of a value and the rest of it. -/
def untag {κ : Type} (type : String) (tag : String → Except Fault κ) :
    Datum → Except Fault (κ × Datum)
  | .record entries => do
    match ← splitTag tag none entries with
    | (some t, rest) => return (t, .record rest)
    | (none, _) => .error (.missingField tagName)
  | .list (d :: ds) => do return (← readTag tag d, .list ds)
  | .list [] => .error (.missingField tagName)
  | d => d.unexpected s!"internally tagged enum {type}"

/-- Whether a part of a tagged value says nothing: it may be a record without entries. -/
def isNothing : Datum → Bool
  | .null | .record [] => true
  | _ => false

/-- One of a closed set of values by its name, as a part of a tagged value. -/
def readNamedPart {α : Type} : List (String × α) → Reader α := readNamedWith isNothing

/-- Reads the rest of a tagged value. -/
def readRest {α : Type} (read : Reader α) : Reader α := fun d =>
  (read d).mapError Fault.inTagged

end Schemata.Datum
