import Schemata.Schema.Basic
/-!
# Validation

The references inside a schema: enum columns to enums, indexes to columns, relations to models
and columns. Each violation is reported once, in the order of the models; within a model come
columns, then indexes, then relations.
-/

namespace Schemata

namespace Finding

/-- Whether something does not refer to anything, or does not fit together. -/
inductive Kind where
  | reference
  | constraint
deriving DecidableEq

def Kind.label : Kind → String
  | .reference => "Reference"
  | .constraint => "Constraint"

end Finding

/-- A violation, and how it could be mended. -/
structure Finding where
  kind : Finding.Kind
  message : String
  location : Option Location
  suggestion : Option String
deriving DecidableEq

namespace Finding

def format (f : Finding) : String :=
  s!"{f.kind.label} error: {f.message}{Location.suffixOf f.location}"

end Finding

/-- Something that is no violation, but not complete either. -/
structure Notice where
  message : String
  location : Option Location
deriving DecidableEq

namespace Notice

def format (n : Notice) : String := Warning.line n.message n.location

end Notice

/-- The outcome of a validation. -/
structure Report where
  errors : List Finding
  warnings : List Notice
deriving DecidableEq

namespace Report

def empty : Report := ⟨[], []⟩

def ofErrors (errors : List Finding) : Report := ⟨errors, []⟩

def merge (a b : Report) : Report := ⟨a.errors ++ b.errors, a.warnings ++ b.warnings⟩

def mergeAll (reports : List Report) : Report := reports.foldr merge empty

def isValid (r : Report) : Bool := r.errors.isEmpty

end Report

namespace Schema

/-- Whether the enum of a column is one of the schema. -/
def knowsEnumOf (s : Schema) (c : Column) : Bool :=
  c.enumName.any fun name => (s.enum? name).isSome

def unknownEnum (model : Model) (c : Column) : Finding where
  kind := .reference
  message :=
    let name := c.enumName.getD "<none>"
    s!"Column '{c.fieldName}' references unknown enum '{name}'"
  location := some ⟨some model.canonicalName, some c.fieldName, none⟩
  suggestion := some "Export the enum declaration alongside the table"

def enumErrors (s : Schema) (model : Model) : List Finding :=
  (model.columns.filter fun c => c.type = .enum && !s.knowsEnumOf c).map (unknownEnum model)

def unknownIndexField (model : Model) (index : Index) (field : String) : Finding where
  kind := .reference
  message := s!"Index '{index.name}' references column '{field}' which does not exist on " ++
    s!"'{model.canonicalName}'"
  location := some ⟨some model.canonicalName, some field, some index.name⟩
  suggestion := some s!"Define column '{field}' or remove it from the index"

/-- Those of the names that no column of a model has. -/
def missingFields (model : Model) (fields : List String) : List String :=
  fields.filter fun field => (model.columnNamed? field).isNone

def indexErrors (model : Model) : List Finding :=
  model.indexes.flatMap fun index =>
    (missingFields model index.fields).map (unknownIndexField model index)

def relationLocation (model : Model) (r : OneRelation) : Location :=
  .ofMember model.canonicalName r.declaredName

def unequalLengths (model : Model) (r : OneRelation) : Finding where
  kind := .constraint
  message := s!"Relation '{r.declaredName}' has {r.sourceFields.length} source field(s) but " ++
    s!"{r.referenceFields.length} reference field(s)"
  location := some (relationLocation model r)
  suggestion := some "List the same number of fields on both sides"

/-- A column of a relation that is not on the model `on`. -/
def unknownRelationField (model : Model) (r : OneRelation) (on field : String) : Finding where
  kind := .reference
  message := s!"Relation field '{field}' does not exist on '{on}'"
  location := some (relationLocation model r)
  suggestion := some s!"Define column '{field}' on '{on}'"

def unknownModel (model : Model) (r : OneRelation) : Finding where
  kind := .reference
  message := s!"Relation '{r.declaredName}' references unknown model '{r.referenceModel}'"
  location := some (relationLocation model r)
  suggestion := none

def noFields (model : Model) (r : OneRelation) : Notice where
  message := s!"Relation '{r.declaredName}' has no fields and cannot be emitted with a key"
  location := some (relationLocation model r)

def unknownFields (model : Model) (r : OneRelation) (on : Model) (fields : List String) :
    List Finding :=
  (missingFields on fields).map (unknownRelationField model r on.canonicalName)

/-- A relation to one row that is declared on a model. -/
def relationReport (s : Schema) (model : Model) (r : OneRelation) : Report :=
  if r.sourceFields.isEmpty && r.referenceFields.isEmpty then ⟨[], [noFields model r]⟩
  else
    let lengths :=
      if r.sourceFields.length = r.referenceFields.length then [] else [unequalLengths model r]
    let references :=
      match s.model? r.referenceModel with
      | some reference => unknownFields model r reference r.referenceFields
      | none => [unknownModel model r]
    .ofErrors (lengths ++ unknownFields model r model r.sourceFields ++ references)

/-- The relations to one row that are declared on a model. -/
def declaredOnes (model : Model) : List OneRelation :=
  (model.relationsIn .out).filterMap fun
    | .one r => some r
    | .many _ => none

def modelReport (s : Schema) (model : Model) : Report :=
  (Report.ofErrors (s.enumErrors model ++ indexErrors model)).merge
    (.mergeAll ((declaredOnes model).map (s.relationReport model)))

def validate (s : Schema) : Report :=
  .mergeAll (s.models.map s.modelReport)

end Schema
end Schemata
