import Schemata.Schema.Basic
import Schemata.Text.Blank
import Schemata.Text.Quoted
/-!
# Prisma schemas

A schema as a Prisma schema document. The document is first built from the lines of its blocks,
and then written; enums and models are ordered by name, whatever their order in the schema.
-/

namespace Schemata.Prisma

/-- What stands in front of the blocks unless a document brings its own beginning. -/
def defaultPrelude : String :=
  "generator client \x7b\n  provider = \"prisma-client-js\"\n\x7d\n\n" ++
  "datasource db \x7b\n  provider = \"postgresql\"\n  url      = env(\"DATABASE_URL\")\n\x7d\n"

/-- The field of a column. -/
structure ColumnLine where
  name : String
  type : String
  attributes : List String

/-- The field of an end of a relation to one row. -/
inductive RelationLine where
  /-- Where the relation is declared, with the columns of both sides. -/
  | outbound (name type : String) (isOptional : Bool) (constraint : String)
      (fields references : List String)
  /-- Where the relation leads to. -/
  | inbound (name type constraint : String)

/-- A constraint over columns. -/
structure IndexLine where
  isUnique : Bool
  fields : List String

structure ModelBlock where
  name : String
  columns : List ColumnLine
  relations : List RelationLine
  indexes : List IndexLine

structure EnumBlock where
  name : String
  values : List String

structure Document where
  preludeText : String
  enums : List EnumBlock
  models : List ModelBlock

/-- The type of a column without the marks of arrays and of null. -/
def baseType (c : Column) : String :=
  match c.type with
  | .enum => c.enumName.getD c.fieldName
  | .date => "DateTime"
  | .datetime => "DateTime"
  | .text => "String"
  | .varchar => "String"
  | .boolean => "Boolean"
  | .decimal => "Decimal"
  | .int => "Int"
  | .bigint => "BigInt"
  | .json => "Json"
  | .bytea => "Bytes"

/-- An array is never marked as null. -/
def typeMarks (c : Column) : String :=
  if c.isArray then "[]" else if c.isNullable then "?" else ""

def keyAttributes (c : Column) : List String :=
  if c.isPrimary then ["@id"] else if c.isUnique then ["@unique"] else []

def updatedAttributes (c : Column) : List String :=
  if c.isUpdatedAt then ["@updatedAt"] else []

/-- The default of a column. That of a point in time is always the present one. -/
def defaultAttributes (c : Column) : List String :=
  if c.hasGeneratedId then ["@default(cuid())"]
  else
    match c.type with
    | .date | .datetime => if c.hasDefault && !c.isUpdatedAt then ["@default(now())"] else []
    | .text | .varchar =>
      c.defaultValue.toList.map fun v => s!"@default({Text.quote v.plainText})"
    | _ => c.defaultValue.toList.map fun v => s!"@default({v.plainText})"

def storageAttributes (c : Column) : List String :=
  match c.type with
  | .datetime => ["@db.Timestamptz()"]
  | .date => ["@db.Date"]
  | .varchar =>
    match c.lengthHint with
    | some length => [s!"@db.VarChar({length.toNat})"]
    | none => ["@db.VarChar"]
  | .bytea => ["@db.ByteA()"]
  | _ => []

def columnLine (c : Column) : ColumnLine where
  name := c.fieldName
  type := baseType c ++ typeMarks c
  attributes :=
    keyAttributes c ++ updatedAttributes c ++ defaultAttributes c ++ storageAttributes c

def outboundLine (r : OneRelation) : RelationLine :=
  .outbound r.fieldName r.referenceModel r.isOptional r.constraintName r.sourceFields
    r.referenceFields

/-- The name of the field where a relation leads to: the model that it comes from, or, where that
name is taken, with the name of the relation behind it. -/
def inboundName (used : List String) (r : OneRelation) : String :=
  if r.sourceModel ∈ used then s!"{r.sourceModel}_{r.declaredName}" else r.sourceModel

/-- The lines of relations to one row, where these names are used before them. -/
def relationLines : (used : List String) → List Relation → List RelationLine
  | _, [] => []
  | used, .many _ :: rest => relationLines used rest
  | used, .one r :: rest =>
    match r.direction with
    | .out => outboundLine r :: relationLines (r.fieldName :: used) rest
    | .inbound =>
      let name := inboundName used r
      .inbound name r.sourceModel r.constraintName :: relationLines (name :: used) rest

def modelBlock (m : Model) : ModelBlock where
  name := m.canonicalName
  columns := m.columns.map columnLine
  relations := relationLines (m.columns.map (·.fieldName)) m.relations
  indexes := m.indexes.map fun i => ⟨i.isUnique, i.fields⟩

def enumBlock (e : EnumType) : EnumBlock := ⟨e.canonicalName, e.values⟩

/-- The document of a schema behind a prelude. -/
def document (preludeText : String) (s : Schema) : Document where
  preludeText := preludeText
  enums := (s.enums.mergeSort fun a b => a.canonicalName ≤ b.canonicalName).map enumBlock
  models := (s.models.mergeSort fun a b => a.canonicalName ≤ b.canonicalName).map modelBlock

/-- Names in brackets behind a label. -/
def listed (label : String) (names : List String) : String :=
  label ++ "[" ++ ", ".intercalate names ++ "]"

namespace ColumnLine

def render (l : ColumnLine) : String := " ".intercalate (l.name :: l.type :: l.attributes)

end ColumnLine

namespace RelationLine

/-- The name of the field. -/
def name : RelationLine → String
  | .outbound name .. => name
  | .inbound name .. => name

/-- The name that both ends of a relation carry. -/
def constraint : RelationLine → String
  | .outbound _ _ _ constraint _ _ => constraint
  | .inbound _ _ constraint => constraint

def isOutbound : RelationLine → Bool
  | .outbound .. => true
  | .inbound .. => false

/-- The model at the other end of the relation. -/
def type : RelationLine → String
  | .outbound _ type .. => type
  | .inbound _ type _ => type

/-- The columns that the line lists of its own model. -/
def fields : RelationLine → List String
  | .outbound _ _ _ _ fields _ => fields
  | .inbound .. => []

/-- The columns that the line lists of the model at the other end, which it does only where it
lists some of its own. -/
def references : RelationLine → List String
  | .outbound _ _ _ _ fields references => if fields.isEmpty then [] else references
  | .inbound .. => []

def render : RelationLine → String
  | .outbound name type isOptional constraint fields references =>
    let columns :=
      if fields.isEmpty then [] else [listed "fields: " fields, listed "references: " references]
    let arguments := ", ".intercalate (s!"\"{constraint}\"" :: columns)
    let mark := if isOptional then "?" else ""
    s!"{name} {type}{mark} @relation({arguments})"
  | .inbound name type constraint => s!"{name} {type}[] @relation(\"{constraint}\")"

end RelationLine

namespace IndexLine

def render (l : IndexLine) : String :=
  (if l.isUnique then "@@unique" else "@@index") ++ listed "(" l.fields ++ ")"

end IndexLine

/-- A section under its title, if it has lines. -/
def sectionText (title : String) (lines : List String) : List String :=
  if lines.isEmpty then [] else [String.join ((title :: lines).map fun l => s!"  {l}\n")]

namespace ModelBlock

def sections (b : ModelBlock) : List String :=
  sectionText "//> Definition" (b.columns.map (·.render)) ++
  sectionText "//> Relations" (b.relations.map (·.render)) ++
  sectionText "//> Constraints & indexes" (b.indexes.map (·.render))

def render (b : ModelBlock) : String :=
  "model " ++ b.name ++ " \x7b\n" ++ "\n".intercalate b.sections ++ "\x7d"

/-- The names of all fields of the block. -/
def fieldNames (b : ModelBlock) : List String :=
  b.columns.map (·.name) ++ b.relations.map (·.name)

end ModelBlock

namespace EnumBlock

def render (b : EnumBlock) : String :=
  "enum " ++ b.name ++ " \x7b\n" ++ String.join (b.values.map fun v => s!"  {v}\n") ++ "\x7d"

end EnumBlock

namespace Document

/-- The blocks, each on lines of its own behind an empty one. -/
def blocks (texts : List String) : String := String.join (texts.map fun t => "\n" ++ t ++ "\n")

def render (d : Document) : String :=
  Text.trimEnd d.preludeText ++ "\n\n// ENUMS:\n" ++ blocks (d.enums.map (·.render)) ++
    "\n// MODELS:\n" ++ blocks (d.models.map (·.render))

end Document
end Schemata.Prisma
