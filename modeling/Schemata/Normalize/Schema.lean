import Schemata.Normalize.Classification
import Schemata.Normalize.Indexes
import Schemata.Normalize.Relations
import Schemata.Schema.Summary
/-!
# Normalization

The schema of a graph, or the first error: relations are resolved before any table is looked at,
and the tables follow in their order. A table is refused for its name, a column, an index or a
column of an enum that the graph does not declare, in this order.
-/

namespace Schemata

namespace EnumDeclaration

def toEnumType (d : EnumDeclaration) : EnumType := ⟨d.binding, d.name, d.values⟩

end EnumDeclaration

namespace TableDeclaration

/-- The columns of a table: each field name once, where it first stands, as it is declared last. -/
def toColumns (t : TableDeclaration) : Except NormalizeError (List Column) :=
  (t.columns.mapM (ColumnDeclaration.classify t.name)).map fun columns =>
    columns.foldl (fun ds c => Model.insertInto c ds) []

/-- The model of a table, whose relations are known. -/
def toModel (t : TableDeclaration) (resolved : ResolvedRelations) :
    Except NormalizeError Model := do
  let columns ← t.toColumns
  let indexes ← t.toIndexes
  return ⟨t.name, t.binding, columns, resolved.attachedTo t.name, indexes⟩

/-- The name of the enum of a column, if the column holds one and the enum is not among these. -/
def danglingEnum? (enums : List EnumType) (c : ColumnDeclaration) : Option String :=
  if c.storage = .enum then
    c.enumName.filter fun name => !enums.any fun e => e.canonicalName == name
  else none

/-- Every enum of a column is among these. -/
def checkEnums (enums : List EnumType) (t : TableDeclaration) : Except NormalizeError Unit :=
  t.columns.forM fun c =>
    match danglingEnum? enums c with
    | some name => c.refused t.name s!"unknown enum '{name}'"
    | none => .ok ()

end TableDeclaration

namespace Graph

def enumTypes (g : Graph) : List EnumType := g.enums.map (·.toEnumType)

/-- The models of tables, none of which may have the name of one seen before. -/
def toModels (enums : List EnumType) (resolved : ResolvedRelations) :
    (seen : List String) → List TableDeclaration → Except NormalizeError (List Model)
  | _, [] => .ok []
  | seen, t :: ts =>
    if t.name ∈ seen then .error (.duplicateModel t.name)
    else do
      let model ← t.toModel resolved
      t.checkEnums enums
      return model :: (← toModels enums resolved (t.name :: seen) ts)

/-- The schema of a graph. -/
def normalize (policy : UnresolvedPolicy) (g : Graph) : Except NormalizeError Schema := do
  let enums := g.enumTypes
  let resolved ← g.resolve policy
  let models ← toModels enums resolved [] g.tables
  return {
    models, enums
    relations := resolved.relations
    warnings := resolved.warnings
    summary := Schema.summarize models enums resolved.relations resolved.warnings }

end Graph
end Schemata
