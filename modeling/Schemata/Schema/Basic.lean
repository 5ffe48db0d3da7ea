import Schemata.Diagnostic
import Schemata.Graph.Basic
/-!
# Normalized schemas

The schema that a graph describes, independent of where it came from: models with classified
columns, enums, resolved relations and indexes.
-/

namespace Schemata

/-- An enum, under the name of its export and its own. -/
structure EnumType where
  exportName : String
  canonicalName : String
  values : List String
deriving DecidableEq

/-- The closed set of column types. -/
inductive ColumnType where
  | enum
  | boolean
  | text
  | varchar
  | date
  | datetime
  | int
  | bigint
  | decimal
  | json
  | bytea
deriving DecidableEq

namespace ColumnType

def name : ColumnType → String
  | .enum => "enum"
  | .boolean => "boolean"
  | .text => "text"
  | .varchar => "varchar"
  | .date => "date"
  | .datetime => "datetime"
  | .int => "int"
  | .bigint => "bigint"
  | .decimal => "decimal"
  | .json => "json"
  | .bytea => "bytea"

def all : List ColumnType :=
  [.enum, .boolean, .text, .varchar, .date, .datetime, .int, .bigint, .decimal, .json, .bytea]

/-- Whether columns may hold arrays of the type. -/
def supportsArray : ColumnType → Bool
  | .text => true
  | .json => true
  | _ => false

end ColumnType

structure Column where
  fieldName : String
  canonicalName : String
  type : ColumnType
  isNullable : Bool
  hasDefault : Bool
  defaultValue : Option DefaultValue
  isPrimary : Bool
  isUnique : Bool
  isArray : Bool
  isUpdatedAt : Bool
  hasGeneratedId : Bool
  enumName : Option String
  lengthHint : Option UInt32
deriving DecidableEq

namespace Column

/-- A nullable column without any mark. -/
def ofType (fieldName canonicalName : String) (type : ColumnType) : Column where
  fieldName := fieldName
  canonicalName := canonicalName
  type := type
  isNullable := true
  hasDefault := false
  defaultValue := none
  isPrimary := false
  isUnique := false
  isArray := false
  isUpdatedAt := false
  hasGeneratedId := false
  enumName := none
  lengthHint := none

end Column

/-- The side from which a model sees a relation: `out` where it is declared, `inbound` where it
leads to. -/
inductive Direction where
  | inbound
  | out
deriving DecidableEq

namespace Direction

def name : Direction → String
  | .inbound => "in"
  | .out => "out"

end Direction

/-- A relation to at most one row, over columns of both sides. -/
structure OneRelation where
  declaredName : String
  fieldName : String
  relationName : Option String
  sourceModel : String
  referenceModel : String
  sourceFields : List String
  referenceFields : List String
  isOptional : Bool
  direction : Direction
deriving DecidableEq

namespace OneRelation

/-- Whether the columns of both sides are known and pair up. -/
def isResolved (r : OneRelation) : Bool :=
  !r.sourceFields.isEmpty && r.sourceFields.length == r.referenceFields.length

/-- The name that both ends of the relation are written with. -/
def constraintName (r : OneRelation) : String :=
  r.relationName.getD s!"{r.referenceModel}_{r.sourceModel}"

end OneRelation

/-- A relation to any number of rows. -/
structure ManyRelation where
  declaredName : String
  sourceModel : String
  referenceModel : String
  direction : Direction
deriving DecidableEq

inductive Relation where
  | one (relation : OneRelation)
  | many (relation : ManyRelation)
deriving DecidableEq

namespace Relation

def declaredName : Relation → String
  | .one r => r.declaredName
  | .many r => r.declaredName

def sourceModel : Relation → String
  | .one r => r.sourceModel
  | .many r => r.sourceModel

def referenceModel : Relation → String
  | .one r => r.referenceModel
  | .many r => r.referenceModel

def direction : Relation → Direction
  | .one r => r.direction
  | .many r => r.direction

def kindName : Relation → String
  | .one _ => "one"
  | .many _ => "many"

def isOne : Relation → Bool
  | .one _ => true
  | .many _ => false

/-- The relation as it is seen from a side. -/
def withDirection (r : Relation) (direction : Direction) : Relation :=
  match r with
  | .one r => .one { r with direction }
  | .many r => .many { r with direction }

@[simp]
theorem direction_withDirection (r : Relation) (d : Direction) :
    (r.withDirection d).direction = d := by
  cases r <;> rfl

@[simp]
theorem withDirection_withDirection (r : Relation) (d e : Direction) :
    (r.withDirection d).withDirection e = r.withDirection e := by
  cases r <;> rfl

@[simp]
theorem withDirection_direction (r : Relation) : r.withDirection r.direction = r := by
  cases r <;> rfl

@[simp]
theorem isOne_withDirection (r : Relation) (d : Direction) :
    (r.withDirection d).isOne = r.isOne := by
  cases r <;> rfl

@[simp]
theorem sourceModel_withDirection (r : Relation) (d : Direction) :
    (r.withDirection d).sourceModel = r.sourceModel := by
  cases r <;> rfl

@[simp]
theorem referenceModel_withDirection (r : Relation) (d : Direction) :
    (r.withDirection d).referenceModel = r.referenceModel := by
  cases r <;> rfl

end Relation

inductive IndexKind where
  | unique
  | normal
deriving DecidableEq

namespace IndexKind

def name : IndexKind → String
  | .unique => "unique"
  | .normal => "normal"

end IndexKind

structure Index where
  kind : IndexKind
  name : String
  fields : List String
deriving DecidableEq

namespace Index

def isUnique (i : Index) : Bool := i.kind = .unique

end Index

/-- A table with its columns, the relations it takes part in, and its indexes. -/
structure Model where
  canonicalName : String
  binding : String
  columns : List Column
  relations : List Relation
  indexes : List Index
deriving DecidableEq

namespace Model

def ofName (canonicalName binding : String) : Model := ⟨canonicalName, binding, [], [], []⟩

/-- The first column of a field name. -/
def column? (m : Model) (fieldName : String) : Option Column :=
  m.columns.find? fun c => c.fieldName == fieldName

/-- The first column of a name in storage. -/
def columnNamed? (m : Model) (name : String) : Option Column :=
  m.columns.find? fun c => c.canonicalName == name

/-- Puts a column in the place of the first one of its field name, or at the end if there is
none. -/
def insertInto (c : Column) : List Column → List Column
  | [] => [c]
  | d :: ds => if d.fieldName = c.fieldName then c :: ds else d :: insertInto c ds

/-- Adds a column; one of the same field name gives its place to it and is returned. -/
def insertColumn (m : Model) (c : Column) : Option Column × Model :=
  (m.column? c.fieldName, { m with columns := insertInto c m.columns })

def relationsIn (m : Model) (direction : Direction) : List Relation :=
  m.relations.filter fun r => r.direction = direction

end Model

/-- A normalized schema. The summary is for people; all else is in the order of the graph. -/
structure Schema where
  models : List Model
  enums : List EnumType
  relations : List Relation
  warnings : List Warning
  summary : String
deriving DecidableEq

namespace Schema

/-- The first model of a name. -/
def model? (s : Schema) (name : String) : Option Model :=
  s.models.find? fun m => m.canonicalName == name

/-- The first enum of a name. -/
def enum? (s : Schema) (name : String) : Option EnumType :=
  s.enums.find? fun e => e.canonicalName == name

end Schema
end Schemata
