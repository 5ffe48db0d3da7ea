/-!
# Diagnostics

Where in a schema something was noticed, the warnings of normalization, and names that a closed
set of values does not know.
-/

namespace Schemata

/-- A table, a column of it, and a relation or an index of it. -/
structure Location where
  table : Option String
  column : Option String
  member : Option String
deriving DecidableEq

namespace Location

def nowhere : Location := ⟨none, none, none⟩

def ofTable (table : String) : Location := ⟨some table, none, none⟩

def ofMember (table member : String) : Location := ⟨some table, none, some member⟩

/-- The parts that are known, in parentheses behind a message; nothing if none is. -/
def suffix (l : Location) : String :=
  let part (name : String) (value : Option String) : List String :=
    value.toList.map fun v => s!"{name}: {v}"
  match part "table" l.table ++ part "column" l.column ++ part "member" l.member with
  | [] => ""
  | parts => " (" ++ ", ".intercalate parts ++ ")"

/-- The suffix of a message whose location may be unknown. -/
def suffixOf (l : Option Location) : String := (l.map suffix).getD ""

end Location

/-- What a warning of normalization is about. -/
inductive WarningKind where
  | unresolvedRelationFields
deriving DecidableEq

/-- Something that normalization noticed and went on. -/
structure Warning where
  message : String
  location : Option Location
  kind : WarningKind
deriving DecidableEq

namespace Warning

def unresolvedRelationFields (table relation referencedTable : String) : Warning where
  message := s!"Relation '{relation}' on '{table}' has no fields: no explicit config and no " ++
    s!"foreign key to '{referencedTable}'"
  location := some (.ofTable table)
  kind := .unresolvedRelationFields

/-- The line that reports a message with its location. -/
def line (message : String) (location : Option Location) : String :=
  s!"Warning: {message}{Location.suffixOf location}"

def format (w : Warning) : String := line w.message w.location

end Warning

/-- A name that stands for no value of a set, and the names that do. -/
structure UnknownName where
  /-- What the values of the set are. -/
  subject : String
  name : String
  known : List String
deriving DecidableEq

namespace UnknownName

def message (u : UnknownName) : String :=
  let known := ", ".intercalate u.known
  s!"Unsupported {u.subject}: {u.name}. Please specify one of: {known}."

end UnknownName
end Schemata
