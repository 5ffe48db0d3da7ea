import Schemata.Graph.Basic
import Schemata.Json.Basic
import Schemata.Tagged
/-!
# Graphs as data

How each part of a graph is written as JSON, and how it is read from data. A part is written with
all its fields; the fields that may be missing when it is read have the values given here.
-/

namespace Schemata

namespace StorageKind

def toJson (kind : StorageKind) : Json := .text kind.name

def read : Datum.Reader StorageKind := fun d => (Datum.readText d).map ofName

end StorageKind

namespace DefaultValue

def toJson : DefaultValue → Json
  | .bool value => .bool value
  | .int value => .int value.toInt
  | .float value => .float value
  | .text value => .text value

/-- The whole numbers of 64 bits with a sign are kept whole; beyond them they become
floating-point numbers. -/
def ofInt? (n : Int) : Option DefaultValue :=
  if Int64.minValue.toInt ≤ n ∧ n ≤ Int64.maxValue.toInt then some (.int (.ofInt n))
  else (Binary64.nearest (n < 0) n.natAbs 1).map .float

def read : Datum.Reader DefaultValue
  | .bool value => .ok (.bool value)
  | .int value =>
    match ofInt? value with
    | some v => .ok v
    | none => .error (.noVariant "DefaultValue")
  | .float value => .ok (.float value)
  | .text value => .ok (.text value)
  | _ => .error (.noVariant "DefaultValue")

end DefaultValue

/-- A list of texts as a JSON array. -/
def Json.ofTexts (texts : List String) : Json := .ofList .text texts

namespace EnumDeclaration

def toMembers (d : EnumDeclaration) : List (String × Json) :=
  [("binding", .text d.binding), ("name", .text d.name), ("values", .ofTexts d.values)]

def fields : Fields [String, String, List String] :=
  .cons (.required "binding" Datum.readText) <|
  .cons (.required "name" Datum.readText) <|
  .cons (.defaulted "values" (Datum.readList Datum.readText) []) .nil

def read : Datum.Reader EnumDeclaration := fun d =>
  (fields.read "EnumDeclaration" d).map fun (binding, name, values, _) =>
    ⟨binding, name, values⟩

end EnumDeclaration

namespace ColumnDeclaration

def toJson (c : ColumnDeclaration) : Json :=
  .object [
    ("alias", .text c.fieldName),
    ("name", .text c.name),
    ("storage", c.storage.toJson),
    ("sql_type", .text c.sqlType),
    ("not_null", .bool c.notNull),
    ("has_default", .bool c.hasDefault),
    ("default_value", .ofOption DefaultValue.toJson c.defaultValue),
    ("primary", .bool c.primary),
    ("unique", .bool c.unique),
    ("enum_name", .ofOption .text c.enumName),
    ("length", .ofOption (fun n => .int n.toNat) c.length),
    ("updated_at", .bool c.updatedAt)]

def fields : Fields [String, String, StorageKind, String, Bool, Bool, Option DefaultValue, Bool,
    Bool, Option String, Option UInt32, Bool] :=
  .cons (.required "alias" Datum.readText) <|
  .cons (.required "name" Datum.readText) <|
  .cons (.required "storage" StorageKind.read) <|
  .cons (.defaulted "sql_type" Datum.readText "") <|
  .cons (.defaulted "not_null" Datum.readBool false) <|
  .cons (.defaulted "has_default" Datum.readBool false) <|
  .cons (.optional "default_value" DefaultValue.read) <|
  .cons (.defaulted "primary" Datum.readBool false) <|
  .cons (.defaulted "unique" Datum.readBool false) <|
  .cons (.optional "enum_name" Datum.readText) <|
  .cons (.optional "length" Datum.readUInt32) <|
  .cons (.defaulted "updated_at" Datum.readBool false) .nil

def read : Datum.Reader ColumnDeclaration := fun d =>
  (fields.read "ColumnDescriptor" d).map
    fun (fieldName, name, storage, sqlType, notNull, hasDefault, defaultValue, primary, unique,
        enumName, length, updatedAt, _) =>
      { fieldName, name, storage, sqlType, notNull, hasDefault, defaultValue, primary, unique,
        enumName, length, updatedAt }

end ColumnDeclaration

namespace IndexDeclaration

def toJson (i : IndexDeclaration) : Json :=
  .object [
    ("name", .text i.name),
    ("columns", .ofTexts i.columns),
    ("unique", .ofOption .bool i.unique),
    ("kind", .ofOption .text i.kind)]

def fields : Fields [String, List String, Option Bool, Option String] :=
  .cons (.required "name" Datum.readText) <|
  .cons (.defaulted "columns" (Datum.readList Datum.readText) []) <|
  .cons (.optional "unique" Datum.readBool) <|
  .cons (.optional "kind" Datum.readText) .nil

def read : Datum.Reader IndexDeclaration := fun d =>
  (fields.read "IndexDeclaration" d).map fun (name, columns, unique, kind, _) =>
    ⟨name, columns, unique, kind⟩

end IndexDeclaration

namespace ForeignKey

def toJson (k : ForeignKey) : Json :=
  .object [
    ("columns", .ofTexts k.columns),
    ("foreign_table", .text k.foreignTable),
    ("foreign_columns", .ofTexts k.foreignColumns)]

def fields : Fields [List String, String, List String] :=
  .cons (.required "columns" (Datum.readList Datum.readText)) <|
  .cons (.required "foreign_table" Datum.readText) <|
  .cons (.required "foreign_columns" (Datum.readList Datum.readText)) .nil

def read : Datum.Reader ForeignKey := fun d =>
  (fields.read "ForeignKeyDescriptor" d).map fun (columns, foreignTable, foreignColumns, _) =>
    ⟨columns, foreignTable, foreignColumns⟩

end ForeignKey

namespace TableDeclaration

def toMembers (t : TableDeclaration) : List (String × Json) :=
  [("binding", .text t.binding),
    ("name", .text t.name),
    ("columns", .ofList ColumnDeclaration.toJson t.columns),
    ("indexes", .ofOption (.ofList IndexDeclaration.toJson) t.indexes),
    ("foreign_keys", .ofList ForeignKey.toJson t.foreignKeys)]

def fields : Fields [String, String, List ColumnDeclaration, Option (List IndexDeclaration),
    List ForeignKey] :=
  .cons (.required "binding" Datum.readText) <|
  .cons (.required "name" Datum.readText) <|
  .cons (.defaulted "columns" (Datum.readList ColumnDeclaration.read) []) <|
  .cons (.optional "indexes" (Datum.readList IndexDeclaration.read)) <|
  .cons (.defaulted "foreign_keys" (Datum.readList ForeignKey.read) []) .nil

def read : Datum.Reader TableDeclaration := fun d =>
  (fields.read "TableDeclaration" d).map fun (binding, name, columns, indexes, foreignKeys, _) =>
    ⟨binding, name, columns, indexes, foreignKeys⟩

end TableDeclaration

namespace Cardinality

def toJson (c : Cardinality) : Json := .text c.name

def read : Datum.Reader Cardinality := fun d => (Datum.readText d).map ofName

end Cardinality

namespace RelationSettings

def toJson (s : RelationSettings) : Json :=
  .object [
    ("fields", .ofTexts s.fields),
    ("references", .ofTexts s.references),
    ("optional", .ofOption .bool s.optional),
    ("relation_name", .ofOption .text s.relationName)]

def fieldRules : Fields [List String, List String, Option Bool, Option String] :=
  .cons (.defaulted "fields" (Datum.readList Datum.readText) []) <|
  .cons (.defaulted "references" (Datum.readList Datum.readText) []) <|
  .cons (.optional "optional" Datum.readBool) <|
  .cons (.optional "relation_name" Datum.readText) .nil

def read : Datum.Reader RelationSettings := fun d =>
  (fieldRules.read "RelationConfig" d).map fun (fields, references, optional, relationName, _) =>
    ⟨fields, references, optional, relationName⟩

end RelationSettings

namespace RelationDeclaration

def toJson (r : RelationDeclaration) : Json :=
  .object [
    ("name", .text r.name),
    ("cardinality", r.cardinality.toJson),
    ("source_table", .text r.sourceTable),
    ("referenced_table", .text r.referencedTable),
    ("config", .ofOption RelationSettings.toJson r.settings)]

def fields : Fields [String, Cardinality, String, String, Option RelationSettings] :=
  .cons (.required "name" Datum.readText) <|
  .cons (.required "cardinality" Cardinality.read) <|
  .cons (.defaulted "source_table" Datum.readText "") <|
  .cons (.required "referenced_table" Datum.readText) <|
  .cons (.optional "config" RelationSettings.read) .nil

def read : Datum.Reader RelationDeclaration := fun d =>
  (fields.read "RelationDescriptor" d).map
    fun (name, cardinality, sourceTable, referencedTable, settings, _) =>
      ⟨name, cardinality, sourceTable, referencedTable, settings⟩

end RelationDeclaration

namespace RelationSet

def toMembers (s : RelationSet) : List (String × Json) :=
  [("binding", .text s.binding),
    ("table", .text s.table),
    ("relations", .ofList RelationDeclaration.toJson s.relations)]

def fields : Fields [String, String, List RelationDeclaration] :=
  .cons (.required "binding" Datum.readText) <|
  .cons (.required "table" Datum.readText) <|
  .cons (.defaulted "relations" (Datum.readList RelationDeclaration.read) []) .nil

def read : Datum.Reader RelationSet := fun d =>
  (fields.read "RelationSetDeclaration" d).map fun (binding, table, relations, _) =>
    ⟨binding, table, relations⟩

end RelationSet

namespace Graph.Entry

/-- The kinds of entries that say something. -/
inductive Kind where
  | enum
  | table
  | relations
  | other
deriving DecidableEq

/-- The kind of a name: any name but the known three is the kind of an entry that says nothing. -/
def Kind.ofName (name : String) : Kind :=
  if name = "enum" then .enum
  else if name = "table" then .table
  else if name = "relations" then .relations
  else .other

def toJson : Entry → Json
  | .enum d => .object (("kind", .text "enum") :: d.toMembers)
  | .table d => .object (("kind", .text "table") :: d.toMembers)
  | .relations s => .object (("kind", .text "relations") :: s.toMembers)
  | .other => .object [("kind", .text "other")]

/-- The fields of an entry that says nothing are not looked at, but as a list it has none. -/
def readOther : Datum.Reader Unit
  | .list items => (Fields.nil.ofItems "GraphEntry" 0 0 items).map fun _ => ()
  | _ => .ok ()

/-- An entry of a kind from the rest of its data. -/
def ofKind (kind : Kind) : Datum.Reader Entry :=
  match kind with
  | .enum => fun d => (EnumDeclaration.read d).map .enum
  | .table => fun d => (TableDeclaration.read d).map .table
  | .relations => fun d => (RelationSet.read d).map .relations
  | .other => fun d => (readOther d).map fun _ => .other

def read : Datum.Reader Entry := fun d => do
  let (kind, rest) ← d.untag "GraphEntry" (fun name => .ok (Kind.ofName name))
  Datum.readRest (ofKind kind) rest

end Graph.Entry

namespace Graph

def toJson (g : Graph) : Json :=
  .object [("version", .ofOption .text g.version), ("entries", .ofList Entry.toJson g.entries)]

end Graph
end Schemata
