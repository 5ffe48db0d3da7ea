import Schemata.Number.Layout
/-!
# Schema graphs

What a snapshot of a database schema declares: enums, tables with their columns, indexes and
foreign keys, and sets of relations between tables. Tables, columns and enums have a name in
storage and the name under which the exporting program knew them.
-/

namespace Schemata

/-- How the values of a column are stored. A kind of another name is kept as it is. -/
inductive StorageKind where
  | enum
  | timestamp
  | boolean
  | text
  | integer
  | bigint53
  | jsonb
  | varchar
  | array
  | custom
  | numeric
  | date
  | other (name : String)
deriving DecidableEq

namespace StorageKind

def name : StorageKind → String
  | .enum => "enum"
  | .timestamp => "timestamp"
  | .boolean => "boolean"
  | .text => "text"
  | .integer => "integer"
  | .bigint53 => "bigint53"
  | .jsonb => "jsonb"
  | .varchar => "varchar"
  | .array => "array"
  | .custom => "custom"
  | .numeric => "numeric"
  | .date => "date"
  | .other name => name

def known : List StorageKind :=
  [.enum, .timestamp, .boolean, .text, .integer, .bigint53, .jsonb, .varchar, .array, .custom,
    .numeric, .date]

def ofName (name : String) : StorageKind :=
  (known.find? fun kind => kind.name == name).getD (.other name)

end StorageKind

/-- The value that a column takes by default. -/
inductive DefaultValue where
  | bool (value : Bool)
  | int (value : Int64)
  | float (value : Binary64)
  | text (value : String)
deriving DecidableEq

namespace DefaultValue

/-- The value as documents write it, without quotes. -/
def plainText : DefaultValue → String
  | .bool value => toString value
  | .int value => toString value.toInt
  | .float value => NumberLayout.plain.render value
  | .text value => value

end DefaultValue

structure EnumDeclaration where
  binding : String
  name : String
  values : List String
deriving DecidableEq

/-- A column under its key on the table (`fieldName`) and its name in storage. -/
structure ColumnDeclaration where
  fieldName : String
  name : String
  storage : StorageKind
  sqlType : String
  notNull : Bool
  hasDefault : Bool
  defaultValue : Option DefaultValue
  primary : Bool
  unique : Bool
  enumName : Option String
  length : Option UInt32
  updatedAt : Bool
deriving DecidableEq

namespace ColumnDeclaration

/-- A nullable column without any mark, whose key is its name in storage. -/
def ofName (name : String) (storage : StorageKind) (sqlType : String) : ColumnDeclaration where
  fieldName := name
  name := name
  storage := storage
  sqlType := sqlType
  notNull := false
  hasDefault := false
  defaultValue := none
  primary := false
  unique := false
  enumName := none
  length := none
  updatedAt := false

def required (c : ColumnDeclaration) : ColumnDeclaration := { c with notNull := true }

/-- A primary key is never null. -/
def primaryKey (c : ColumnDeclaration) : ColumnDeclaration :=
  { c with primary := true, notNull := true }

def withDefault (c : ColumnDeclaration) (value : DefaultValue) : ColumnDeclaration :=
  { c with hasDefault := true, defaultValue := some value }

def isNullable (c : ColumnDeclaration) : Bool := !c.notNull

end ColumnDeclaration

structure IndexDeclaration where
  name : String
  columns : List String
  unique : Option Bool
  kind : Option String
deriving DecidableEq

/-- Local columns that refer to the columns of another table, all by their names in storage. -/
structure ForeignKey where
  columns : List String
  foreignTable : String
  foreignColumns : List String
deriving DecidableEq

/-- A table. Declaring no indexes at all differs from declaring an empty list of them. -/
structure TableDeclaration where
  binding : String
  name : String
  columns : List ColumnDeclaration
  indexes : Option (List IndexDeclaration)
  foreignKeys : List ForeignKey
deriving DecidableEq

namespace TableDeclaration

/-- An empty table that is bound to its own name. -/
def ofName (name : String) : TableDeclaration where
  binding := name
  name := name
  columns := []
  indexes := none
  foreignKeys := []

/-- The first column of a name in storage. -/
def columnNamed? (t : TableDeclaration) (name : String) : Option ColumnDeclaration :=
  t.columns.find? fun c => c.name == name

def addColumn (t : TableDeclaration) (c : ColumnDeclaration) : TableDeclaration :=
  { t with columns := t.columns ++ [c] }

def addForeignKey (t : TableDeclaration) (k : ForeignKey) : TableDeclaration :=
  { t with foreignKeys := t.foreignKeys ++ [k] }

def addIndex (t : TableDeclaration) (i : IndexDeclaration) : TableDeclaration :=
  { t with indexes := some (t.indexes.getD [] ++ [i]) }

end TableDeclaration

/-- How many rows of the referenced table a relation leads to. -/
inductive Cardinality where
  | one
  | many
  | other (name : String)
deriving DecidableEq

namespace Cardinality

def name : Cardinality → String
  | .one => "one"
  | .many => "many"
  | .other name => name

def ofName (name : String) : Cardinality :=
  if name = "one" then .one else if name = "many" then .many else .other name

end Cardinality

/-- What a relation says about its columns of its own accord. -/
structure RelationSettings where
  fields : List String
  references : List String
  optional : Option Bool
  relationName : Option String
deriving DecidableEq

namespace RelationSettings

def empty : RelationSettings := ⟨[], [], none, none⟩

end RelationSettings

/-- A relation. An empty source table stands for the table of the set it is declared in. -/
structure RelationDeclaration where
  name : String
  cardinality : Cardinality
  sourceTable : String
  referencedTable : String
  settings : Option RelationSettings
deriving DecidableEq

structure RelationSet where
  binding : String
  table : String
  relations : List RelationDeclaration
deriving DecidableEq

namespace Graph

/-- One export of a snapshot; exports of other kinds count but say nothing. -/
inductive Entry where
  | enum (declaration : EnumDeclaration)
  | table (declaration : TableDeclaration)
  | relations (set : RelationSet)
  | other
deriving DecidableEq

namespace Entry

def binding? : Entry → Option String
  | .enum d => some d.binding
  | .table d => some d.binding
  | .relations s => some s.binding
  | .other => none

end Entry
end Graph

/-- A snapshot: its exports in their order. -/
structure Graph where
  version : Option String
  entries : List Graph.Entry
deriving DecidableEq

namespace Graph

def empty : Graph := ⟨none, []⟩

def push (g : Graph) (e : Entry) : Graph := { g with entries := g.entries ++ [e] }

def tables (g : Graph) : List TableDeclaration :=
  g.entries.filterMap fun
    | .table d => some d
    | _ => none

def enums (g : Graph) : List EnumDeclaration :=
  g.entries.filterMap fun
    | .enum d => some d
    | _ => none

def relationSets (g : Graph) : List RelationSet :=
  g.entries.filterMap fun
    | .relations s => some s
    | _ => none

/-- The first table of a name. -/
def tableNamed? (g : Graph) (name : String) : Option TableDeclaration :=
  g.tables.find? fun t => t.name == name

end Graph
end Schemata
