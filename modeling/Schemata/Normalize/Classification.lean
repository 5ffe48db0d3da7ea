import Schemata.Normalize.Error
import Schemata.Normalize.LengthHint
import Schemata.Schema.Basic
/-!
# Classification of columns

Each declared column becomes a column of one of the closed set of types, or is refused.
-/

namespace Schemata.ColumnDeclaration

def refused {α : Type} (c : ColumnDeclaration) (table reason : String) :
    Except NormalizeError α :=
  .error (.unclassifiableColumn table c.name c.storage.name c.sqlType reason)

/-- The type of a column, and whether it holds arrays of it. -/
def classifyType (table : String) (c : ColumnDeclaration) :
    Except NormalizeError (ColumnType × Bool) :=
  match c.storage with
  | .enum =>
    if c.enumName.isNone then c.refused table "enum column without an enum name"
    else .ok (.enum, false)
  | .timestamp => .ok (.datetime, false)
  | .boolean => .ok (.boolean, false)
  | .text => .ok (.text, false)
  | .integer => .ok (.int, false)
  | .bigint53 => .ok (.bigint, false)
  | .jsonb => .ok (.json, false)
  | .varchar => .ok (.varchar, false)
  | .array =>
    let elementType := Text.trim c.sqlType
    if elementType = "text[]" then .ok (.text, true)
    else if elementType = "jsonb[]" then .ok (.json, true)
    else c.refused table "unsupported array element type"
  | .custom =>
    if Text.trim c.sqlType = "bytea" then .ok (.bytea, false)
    else c.refused table "unsupported custom column type"
  | .numeric => .ok (.decimal, false)
  | .date => .ok (.date, false)
  | .other _ => c.refused table "no type tag matched"

/-- Whether rows get a generated value: a text as primary key that has no default of its own. -/
def generatesId (c : ColumnDeclaration) (type : ColumnType) (isArray : Bool) : Bool :=
  type = .text && c.primary && !isArray && c.defaultValue.isNone

/-- The column of a type that a declaration describes. -/
def toColumn (c : ColumnDeclaration) (type : ColumnType) (isArray : Bool) : Column where
  fieldName := c.fieldName
  canonicalName := c.name
  type := type
  isNullable := c.isNullable
  hasDefault := c.hasDefault || c.generatesId type isArray
  defaultValue := c.defaultValue
  isPrimary := c.primary
  isUnique := c.unique
  isArray := isArray
  isUpdatedAt := c.updatedAt
  hasGeneratedId := c.generatesId type isArray
  enumName := if type = .enum then c.enumName else none
  lengthHint := if type = .varchar then c.length <|> LengthHint.ofSqlType? c.sqlType else none

/-- The column that a declaration on a table describes. -/
def classify (table : String) (c : ColumnDeclaration) : Except NormalizeError Column :=
  (c.classifyType table).map fun (type, isArray) => c.toColumn type isArray

end Schemata.ColumnDeclaration
