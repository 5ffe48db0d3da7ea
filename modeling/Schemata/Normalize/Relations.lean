import Schemata.Normalize.Error
import Schemata.Schema.Basic
/-!
# Resolution of relations

The relations of a graph as one list: first those that lead to one row, then those that lead to
many, each kind in the order of declaration, and no relation twice. The columns of a relation to
one row are those it states itself, or else those of the first foreign key of its source table
that leads to the referenced table.
-/

namespace Schemata

/-- What becomes of a relation to one row that has no columns. -/
inductive UnresolvedPolicy where
  | warn
  | error
deriving DecidableEq

namespace UnresolvedPolicy

def name : UnresolvedPolicy → String
  | .warn => "warn"
  | .error => "error"

def named : List (String × UnresolvedPolicy) := [("warn", .warn), ("error", .error)]

def ofName (name : String) : Except UnknownName UnresolvedPolicy :=
  match named.lookup name with
  | some policy => .ok policy
  | none => .error ⟨"unresolved relation policy", name, named.map (·.1)⟩

end UnresolvedPolicy

/-- The relations of a graph, all as their sources see them, and what was noticed about them. -/
structure ResolvedRelations where
  relations : List Relation
  warnings : List Warning
deriving DecidableEq

namespace ResolvedRelations

/-- The relations that a model takes part in: those that lead to one row of it, and then those
that are declared on it. -/
def attachedTo (r : ResolvedRelations) (model : String) : List Relation :=
  (r.relations.filter fun x => x.isOne && x.referenceModel == model).map
      (·.withDirection .inbound) ++
    (r.relations.filter fun x => x.sourceModel == model).map (·.withDirection .out)

def oneCount (r : ResolvedRelations) : Nat := r.relations.countP Relation.isOne

def manyCount (r : ResolvedRelations) : Nat := r.relations.length - r.oneCount

end ResolvedRelations

namespace RelationDeclaration

/-- The table that a relation starts from. -/
def source (set : RelationSet) (d : RelationDeclaration) : String :=
  if d.sourceTable.isEmpty then set.table else d.sourceTable

end RelationDeclaration

namespace TableDeclaration

/-- The first foreign key that leads to a table. -/
def foreignKeyTo? (t : TableDeclaration) (table : String) : Option ForeignKey :=
  t.foreignKeys.find? fun k => k.foreignTable == table

/-- Whether one of the named columns may be null. -/
def anyNullable (t : TableDeclaration) (columns : List String) : Bool :=
  columns.any fun name => (t.columnNamed? name).any ColumnDeclaration.isNullable

end TableDeclaration

namespace Graph

/-- Every relation of a graph in the order of declaration, with the table it starts from. -/
def relationDeclarations (g : Graph) : List (String × RelationDeclaration) :=
  g.relationSets.flatMap fun set => set.relations.map fun d => (d.source set, d)

/-- A relation to one row over the columns of its two sides. -/
def oneRelation (source : String) (d : RelationDeclaration)
    (sourceFields referenceFields : List String) (isOptional : Bool) : OneRelation where
  declaredName := d.name
  fieldName := d.name
  relationName := d.settings.bind (·.relationName)
  sourceModel := source
  referenceModel := d.referencedTable
  sourceFields := sourceFields
  referenceFields := referenceFields
  isOptional := isOptional
  direction := .out

/-- Resolves a relation to one row that starts from a table of the graph, if there is such a
table. A relation without columns is refused, or kept with a warning. -/
def resolveOne (policy : UnresolvedPolicy) (g : Graph) (source : String)
    (d : RelationDeclaration) : Except NormalizeError (OneRelation × List Warning) :=
  let table := g.tableNamed? source
  let nullable (columns : List String) : Bool := table.any (·.anyNullable columns)
  let settings := d.settings.getD .empty
  let isOptional := settings.optional.getD (nullable settings.fields)
  if settings.fields.isEmpty || settings.references.isEmpty then
    -- A foreign key decides by its own columns whether the relation is optional.
    match table.bind (·.foreignKeyTo? d.referencedTable), policy with
    | some key, _ =>
      .ok (oneRelation source d key.columns key.foreignColumns (nullable key.columns), [])
    | none, .error => .error (.unresolvedRelationFields source d.name d.referencedTable)
    | none, .warn =>
      .ok (oneRelation source d [] [] isOptional,
        [.unresolvedRelationFields source d.name d.referencedTable])
  else
    .ok (oneRelation source d settings.fields settings.references isOptional, [])

/-- What the relation declarations of a graph come to, before repetitions are dropped. -/
structure Resolution where
  ones : List OneRelation
  manys : List ManyRelation
  warnings : List Warning

/-- Resolves relation declarations in their order. -/
def resolveEach (policy : UnresolvedPolicy) (g : Graph) :
    List (String × RelationDeclaration) → Except NormalizeError Resolution
  | [] => .ok ⟨[], [], []⟩
  | (source, d) :: rest =>
    match d.cardinality with
    | .one => do
      let (one, noticed) ← g.resolveOne policy source d
      let r ← resolveEach policy g rest
      return ⟨one :: r.ones, r.manys, noticed ++ r.warnings⟩
    | .many => do
      let r ← resolveEach policy g rest
      return ⟨r.ones, ⟨d.name, source, d.referencedTable, .out⟩ :: r.manys, r.warnings⟩
    | .other name => .error (.malformedRelation source d.name name)

/-- The relations of a graph. -/
def resolve (policy : UnresolvedPolicy) (g : Graph) : Except NormalizeError ResolvedRelations := do
  let r ← g.resolveEach policy g.relationDeclarations
  return ⟨(r.ones.map Relation.one ++ r.manys.map Relation.many).eraseDups, r.warnings⟩

end Graph
end Schemata
