import Schemata.Graph.Codec
import Schemata.Schema.Basic
/-!
# Schemas as data

How each part of a schema is written as JSON, with all its fields in a fixed order, and how it is
read back from data.
-/

namespace Schemata

namespace Location

def toJson (l : Location) : Json :=
  .object [
    ("table", .ofOption .text l.table),
    ("column", .ofOption .text l.column),
    ("member", .ofOption .text l.member)]

def fields : Fields [Option String, Option String, Option String] :=
  .cons (.nullable "table" Datum.readText) <|
  .cons (.nullable "column" Datum.readText) <|
  .cons (.nullable "member" Datum.readText) .nil

def read : Datum.Reader Location := fun d =>
  (fields.read "ErrorLocation" d).map fun (table, column, member, _) => ⟨table, column, member⟩

end Location

namespace WarningKind

def named : List (String × WarningKind) :=
  [("unresolved_relation_fields", .unresolvedRelationFields)]

def toJson : WarningKind → Json
  | .unresolvedRelationFields => .text "unresolved_relation_fields"

end WarningKind

namespace Warning

def toJson (w : Warning) : Json :=
  .object [
    ("message", .text w.message),
    ("location", .ofOption Location.toJson w.location),
    ("kind", w.kind.toJson)]

def fields : Fields [String, Option Location, WarningKind] :=
  .cons (.required "message" Datum.readText) <|
  .cons (.nullable "location" Location.read) <|
  .cons (.required "kind" (Datum.readNamed WarningKind.named)) .nil

def read : Datum.Reader Warning := fun d =>
  (fields.read "NormalizationWarning" d).map fun (message, location, kind, _) =>
    ⟨message, location, kind⟩

end Warning

namespace EnumType

def toJson (e : EnumType) : Json :=
  .object [
    ("alias", .text e.exportName),
    ("canonical_name", .text e.canonicalName),
    ("values", .ofTexts e.values)]

def fields : Fields [String, String, List String] :=
  .cons (.required "alias" Datum.readText) <|
  .cons (.required "canonical_name" Datum.readText) <|
  .cons (.required "values" (Datum.readList Datum.readText)) .nil

def read : Datum.Reader EnumType := fun d =>
  (fields.read "Enum" d).map fun (exportName, canonicalName, values, _) =>
    ⟨exportName, canonicalName, values⟩

end EnumType

namespace ColumnType

def named : List (String × ColumnType) := all.map fun t => (t.name, t)

def toJson (t : ColumnType) : Json := .text t.name

def read : Datum.Reader ColumnType := Datum.readNamed named

end ColumnType

namespace Column

def toJson (c : Column) : Json :=
  .object [
    ("alias", .text c.fieldName),
    ("canonical_name", .text c.canonicalName),
    ("type", c.type.toJson),
    ("is_nullable", .bool c.isNullable),
    ("has_default", .bool c.hasDefault),
    ("default_value", .ofOption DefaultValue.toJson c.defaultValue),
    ("is_primary", .bool c.isPrimary),
    ("is_unique", .bool c.isUnique),
    ("is_array", .bool c.isArray),
    ("is_updated_at", .bool c.isUpdatedAt),
    ("has_generated_id", .bool c.hasGeneratedId),
    ("enum_name", .ofOption .text c.enumName),
    ("length_hint", .ofOption (fun n => .int n.toNat) c.lengthHint)]

def fields : Fields [String, String, ColumnType, Bool, Bool, Option DefaultValue, Bool, Bool, Bool,
    Bool, Bool, Option String, Option UInt32] :=
  .cons (.required "alias" Datum.readText) <|
  .cons (.required "canonical_name" Datum.readText) <|
  .cons (.required "type" ColumnType.read) <|
  .cons (.required "is_nullable" Datum.readBool) <|
  .cons (.required "has_default" Datum.readBool) <|
  .cons (.nullable "default_value" DefaultValue.read) <|
  .cons (.required "is_primary" Datum.readBool) <|
  .cons (.required "is_unique" Datum.readBool) <|
  .cons (.required "is_array" Datum.readBool) <|
  .cons (.required "is_updated_at" Datum.readBool) <|
  .cons (.required "has_generated_id" Datum.readBool) <|
  .cons (.nullable "enum_name" Datum.readText) <|
  .cons (.nullable "length_hint" Datum.readUInt32) .nil

def read : Datum.Reader Column := fun d =>
  (fields.read "Column" d).map
    fun (fieldName, canonicalName, type, isNullable, hasDefault, defaultValue, isPrimary, isUnique,
        isArray, isUpdatedAt, hasGeneratedId, enumName, lengthHint, _) =>
      { fieldName, canonicalName, type, isNullable, hasDefault, defaultValue, isPrimary, isUnique,
        isArray, isUpdatedAt, hasGeneratedId, enumName, lengthHint }

end Column

namespace Direction

def named : List (String × Direction) := [("in", .inbound), ("out", .out)]

def toJson (d : Direction) : Json := .text d.name

/-- A direction is a part of a relation, which is a tagged value. -/
def read : Datum.Reader Direction := Datum.readNamedPart named

end Direction

namespace OneRelation

def toMembers (r : OneRelation) : List (String × Json) :=
  [("declared_name", .text r.declaredName),
    ("alias", .text r.fieldName),
    ("relation_name", .ofOption .text r.relationName),
    ("source_model", .text r.sourceModel),
    ("reference_model", .text r.referenceModel),
    ("source_fields", .ofTexts r.sourceFields),
    ("reference_fields", .ofTexts r.referenceFields),
    ("is_optional", .bool r.isOptional),
    ("direction", r.direction.toJson)]

def fields : Fields [String, String, Option String, String, String, List String, List String, Bool,
    Direction] :=
  .cons (.required "declared_name" Datum.readText) <|
  .cons (.required "alias" Datum.readText) <|
  .cons (.nullable "relation_name" Datum.readText) <|
  .cons (.required "source_model" Datum.readText) <|
  .cons (.required "reference_model" Datum.readText) <|
  .cons (.required "source_fields" (Datum.readList Datum.readText)) <|
  .cons (.required "reference_fields" (Datum.readList Datum.readText)) <|
  .cons (.required "is_optional" Datum.readBool) <|
  .cons (.required "direction" Direction.read) .nil

def read : Datum.Reader OneRelation := fun d =>
  (fields.read "OneRelation" d).map
    fun (declaredName, fieldName, relationName, sourceModel, referenceModel, sourceFields,
        referenceFields, isOptional, direction, _) =>
      { declaredName, fieldName, relationName, sourceModel, referenceModel, sourceFields,
        referenceFields, isOptional, direction }

end OneRelation

namespace ManyRelation

def toMembers (r : ManyRelation) : List (String × Json) :=
  [("declared_name", .text r.declaredName),
    ("source_model", .text r.sourceModel),
    ("reference_model", .text r.referenceModel),
    ("direction", r.direction.toJson)]

def fields : Fields [String, String, String, Direction] :=
  .cons (.required "declared_name" Datum.readText) <|
  .cons (.required "source_model" Datum.readText) <|
  .cons (.required "reference_model" Datum.readText) <|
  .cons (.required "direction" Direction.read) .nil

def read : Datum.Reader ManyRelation := fun d =>
  (fields.read "ManyRelation" d).map
    fun (declaredName, sourceModel, referenceModel, direction, _) =>
      ⟨declaredName, sourceModel, referenceModel, direction⟩

end ManyRelation

namespace Relation

/-- The readers of the two kinds of relations, by their tags. -/
def readers : List (String × Datum.Reader Relation) :=
  [("one", fun d => (OneRelation.read d).map .one),
    ("many", fun d => (ManyRelation.read d).map .many)]

def toJson : Relation → Json
  | .one r => .object (("kind", .text "one") :: r.toMembers)
  | .many r => .object (("kind", .text "many") :: r.toMembers)

def read : Datum.Reader Relation := fun d => do
  let (read, rest) ← d.untag "Relation" (Datum.ofName readers)
  Datum.readRest read rest

end Relation

namespace IndexKind

def named : List (String × IndexKind) := [("unique", .unique), ("normal", .normal)]

def toJson (k : IndexKind) : Json := .text k.name

def read : Datum.Reader IndexKind := Datum.readNamed named

end IndexKind

namespace Index

def toJson (i : Index) : Json :=
  .object [("kind", i.kind.toJson), ("name", .text i.name), ("fields", .ofTexts i.fields)]

def fieldRules : Fields [IndexKind, String, List String] :=
  .cons (.required "kind" IndexKind.read) <|
  .cons (.required "name" Datum.readText) <|
  .cons (.required "fields" (Datum.readList Datum.readText)) .nil

def read : Datum.Reader Index := fun d =>
  (fieldRules.read "Index" d).map fun (kind, name, fields, _) => ⟨kind, name, fields⟩

end Index

namespace Model

def toJson (m : Model) : Json :=
  .object [
    ("canonical_name", .text m.canonicalName),
    ("binding", .text m.binding),
    ("columns", .ofList Column.toJson m.columns),
    ("relations", .ofList Relation.toJson m.relations),
    ("indexes", .ofList Index.toJson m.indexes)]

def fields : Fields [String, String, List Column, List Relation, List Index] :=
  .cons (.required "canonical_name" Datum.readText) <|
  .cons (.required "binding" Datum.readText) <|
  .cons (.required "columns" (Datum.readList Column.read)) <|
  .cons (.required "relations" (Datum.readList Relation.read)) <|
  .cons (.required "indexes" (Datum.readList Index.read)) .nil

def read : Datum.Reader Model := fun d =>
  (fields.read "Model" d).map fun (canonicalName, binding, columns, relations, indexes, _) =>
    ⟨canonicalName, binding, columns, relations, indexes⟩

end Model

namespace Schema

/-- All that a schema says, without its summary. -/
def canonicalMembers (s : Schema) : List (String × Json) :=
  [("models", .ofList Model.toJson s.models),
    ("enums", .ofList EnumType.toJson s.enums),
    ("relations", .ofList Relation.toJson s.relations),
    ("warnings", .ofList Warning.toJson s.warnings)]

def toJson (s : Schema) : Json :=
  .object (s.canonicalMembers ++ [("summary", .text s.summary)])

def fields : Fields [List Model, List EnumType, List Relation, List Warning, String] :=
  .cons (.required "models" (Datum.readList Model.read)) <|
  .cons (.required "enums" (Datum.readList EnumType.read)) <|
  .cons (.required "relations" (Datum.readList Relation.read)) <|
  .cons (.defaulted "warnings" (Datum.readList Warning.read) []) <|
  .cons (.required "summary" Datum.readText) .nil

def read : Datum.Reader Schema := fun d =>
  (fields.read "SchemaIr" d).map fun (models, enums, relations, warnings, summary, _) =>
    ⟨models, enums, relations, warnings, summary⟩

end Schema
end Schemata
