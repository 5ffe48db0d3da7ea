import Schemata.Schema.Basic
import Schemata.Text.Quoted
/-!
# TypeScript types

A schema as types of TypeScript. The document is first built from its types, and then written;
models and enums keep the order of the schema.
-/

namespace Schemata.TypeScript

/-- The types that the types of every schema are made of. -/
def baseTypes : List String := [
  "export type __ColumnType =",
  "    | \"enum\"",
  "    | \"boolean\"",
  "    | \"text\"",
  "    | \"varchar\"",
  "    | \"date\"",
  "    | \"datetime\"",
  "    | \"int\"",
  "    | \"bigint\"",
  "    | \"json\"",
  "    | \"bytea\"",
  "    | \"decimal\";",
  "",
  "export type __Column = \x7b",
  "    alias: string;",
  "    name: string;",
  "    type: __ColumnType;",
  "    isNullable: boolean;",
  "    isHasDefault: boolean;",
  "    isPrimary: boolean;",
  "    isUnique: boolean;",
  "    enumName?: string;",
  "\x7d;",
  "",
  "export type __Enum = \x7b",
  "    name: string;",
  "    values: string[];",
  "\x7d;",
  "",
  "export type __One = \x7b",
  "    type: \"one\";",
  "    kind: \"in\" | \"out\";",
  "    source: __Model;",
  "    reference: __Model;",
  "    sourceFields: string[];",
  "    referenceFields: string[];",
  "\x7d;",
  "",
  "export type __Many = \x7b",
  "    type: \"many\";",
  "    source: __Model;",
  "    reference: __Model;",
  "\x7d;",
  "",
  "export type __Relation<O extends __One | __Many> = O;",
  "",
  "export type __Model = \x7b",
  "    name: string;",
  "    columns: Record<string, __Column>;",
  "    relations: Record<string, __Relation<any>>;",
  "    indexes: Record<string, string>;",
  "\x7d;",
  "",
  "export type __CreateColumn<O extends __Column> = O;",
  "export type __CreateEnum<O extends __Enum> = O;",
  "export type __CreateOne<O extends __One> = O;",
  "export type __CreateMany<O extends __Many> = O;",
  "export type __CreateRelation<O extends __One | __Many> = O;",
  "export type __CreateModel<O extends __Model> = O;",
  "",
  "export type __AllEntriesSetup = \x7b",
  "    models: Record<string, __Model>;",
  "    enums: Record<string, __Enum>;",
  "\x7d;"]

structure EnumEntry where
  exportName : String
  name : String
  values : List String

structure ColumnEntry where
  fieldName : String
  name : String
  type : String
  isNullable : Bool
  hasDefault : Bool
  isPrimary : Bool
  isUnique : Bool
  enumName : Option String

structure RelationEntry where
  fieldName : String
  direction : String
  source : String
  reference : String
  sourceFields : List String
  referenceFields : List String

structure ModelEntry where
  name : String
  columns : List ColumnEntry
  relations : List RelationEntry

/-- The types of a document, and the lists that name all of them: each name with its type. -/
structure Document where
  enums : List EnumEntry
  models : List ModelEntry
  allModels : List (String × String)
  allEnums : List (String × String)

def enumEntry (e : EnumType) : EnumEntry := ⟨e.exportName, e.canonicalName, e.values⟩

def columnEntry (c : Column) : ColumnEntry where
  fieldName := c.fieldName
  name := c.canonicalName
  type := c.type.name
  isNullable := c.isNullable
  hasDefault := c.hasDefault
  isPrimary := c.isPrimary
  isUnique := c.isUnique
  enumName := c.enumName

def relationEntry (r : OneRelation) : RelationEntry where
  fieldName := r.fieldName
  direction := r.direction.name
  source := r.sourceModel
  reference := r.referenceModel
  sourceFields := r.sourceFields
  referenceFields := r.referenceFields

/-- The relations to one row that are declared on a model. -/
def declaredRelations (m : Model) : List RelationEntry :=
  (m.relationsIn .out).filterMap fun
    | .one r => some (relationEntry r)
    | .many _ => none

def modelEntry (m : Model) : ModelEntry where
  name := m.canonicalName
  columns := m.columns.map columnEntry
  relations := declaredRelations m

/-- The document of a schema. -/
def document (s : Schema) : Document where
  enums := s.enums.map enumEntry
  models := s.models.map modelEntry
  allModels := s.models.map fun m => (m.canonicalName, m.canonicalName)
  allEnums := s.enums.map fun e => (e.canonicalName, e.exportName)

/-- Lines, each with its end. -/
def lines (texts : List String) : String := String.join (texts.map (· ++ "\n"))

/-- A type in braces, at an indentation; without lines it is written in one piece. -/
def braces (indent head : String) (body : List String) (tail : String) : List String :=
  if body.isEmpty then [indent ++ head ++ "\x7b\x7d" ++ tail]
  else (indent ++ head ++ "\x7b") :: body ++ [indent ++ "\x7d" ++ tail]

namespace EnumEntry

def lines (e : EnumEntry) : List String :=
  [s!"export type {e.exportName} = __CreateEnum<" ++ "\x7b",
    s!"    name: {Text.quote e.name};",
    s!"    values: [{Text.quotedList e.values}];",
    "\x7d>;"]

end EnumEntry

namespace ColumnEntry

def lines (c : ColumnEntry) : List String :=
  let enumName := (c.enumName.map Text.quote).getD "undefined"
  [s!"        {c.fieldName}: __CreateColumn<" ++ "\x7b",
    s!"            alias: {Text.quote c.fieldName};",
    s!"            name: {Text.quote c.name};",
    s!"            type: \"{c.type}\";",
    s!"            isNullable: {c.isNullable};",
    s!"            isHasDefault: {c.hasDefault};",
    s!"            isPrimary: {c.isPrimary};",
    s!"            isUnique: {c.isUnique};",
    s!"            enumName: {enumName};",
    "        \x7d>;"]

end ColumnEntry

namespace RelationEntry

def lines (r : RelationEntry) : List String :=
  [s!"        {r.fieldName}: __CreateRelation<" ++ "\x7b",
    "            type: \"one\";",
    s!"            kind: \"{r.direction}\";",
    s!"            source: {r.source};",
    s!"            reference: {r.reference};",
    s!"            sourceFields: [{Text.quotedList r.sourceFields}];",
    s!"            referenceFields: [{Text.quotedList r.referenceFields}];",
    "        \x7d>;"]

end RelationEntry

namespace ModelEntry

def lines (m : ModelEntry) : List String :=
  [s!"export type {m.name} = __CreateModel<" ++ "\x7b",
    s!"    name: {Text.quote m.name};"] ++
  braces "    " "columns: " (m.columns.flatMap (·.lines)) ";" ++
  braces "    " "relations: " (m.relations.flatMap (·.lines)) ";" ++
  ["    indexes: \x7b\x7d;", "\x7d>;"]

end ModelEntry

/-- A type that names types. -/
def listing (name : String) (entries : List (String × String)) : List String :=
  braces "" s!"export type {name} = " (entries.map fun (key, type) => s!"    {key}: {type};") ";"

namespace Document

def lines (d : Document) : List String :=
  baseTypes ++
  d.enums.flatMap (fun e => "" :: e.lines) ++
  d.models.flatMap (fun m => "" :: m.lines) ++
  "" :: listing "__AllModels" d.allModels ++
  "" :: listing "__AllEnums" d.allEnums ++
  ["", "export type __AllEntries = \x7b", "    models: __AllModels;", "    enums: __AllEnums;",
    "\x7d;"]

def render (d : Document) : String := TypeScript.lines d.lines

end Document
end Schemata.TypeScript
