/-!
# Errors of normalization

Why a graph describes no schema. Normalization stops at the first of them.
-/

namespace Schemata

inductive NormalizeError where
  | unclassifiableColumn (table column storage sqlType reason : String)
  /-- A relation that leads neither to one row nor to many. -/
  | malformedRelation (table relation cardinality : String)
  | unsupportedIndexKind (table index kind : String)
  | ambiguousIndex (table index reason : String)
  /-- A relation without columns, where that is not allowed. -/
  | unresolvedRelationFields (table relation referencedTable : String)
  | duplicateModel (name : String)
deriving DecidableEq

namespace NormalizeError

def message : NormalizeError → String
  | .unclassifiableColumn table column storage sqlType reason =>
    s!"Cannot classify column '{column}' on table '{table}': {reason} " ++
      s!"(storage: {storage}, sql type: {sqlType})"
  | .malformedRelation table relation cardinality =>
    s!"Relation '{relation}' on table '{table}' is neither a one nor a many relation " ++
      s!"(cardinality: {cardinality})"
  | .unsupportedIndexKind table index kind =>
    s!"Unsupported index kind '{kind}' for index '{index}' on table '{table}'"
  | .ambiguousIndex table index reason =>
    s!"Ambiguous index '{index}' on table '{table}': {reason}"
  | .unresolvedRelationFields table relation referencedTable =>
    s!"Cannot resolve fields for relation '{relation}' on table '{table}': no explicit fields " ++
      s!"and no foreign key to '{referencedTable}'"
  | .duplicateModel name => s!"Duplicate model name '{name}'"

/-- The table that the error is about. -/
def table : NormalizeError → String
  | .unclassifiableColumn table _ _ _ _ => table
  | .malformedRelation table _ _ => table
  | .unsupportedIndexKind table _ _ => table
  | .ambiguousIndex table _ _ => table
  | .unresolvedRelationFields table _ _ => table
  | .duplicateModel name => name

def isUnclassifiableColumn : NormalizeError → Bool
  | .unclassifiableColumn .. => true
  | _ => false

def isMalformedRelation : NormalizeError → Bool
  | .malformedRelation .. => true
  | _ => false

/-- Whether the error is about an index. -/
def isIndexError : NormalizeError → Bool
  | .unsupportedIndexKind .. => true
  | .ambiguousIndex .. => true
  | _ => false

def isUnresolvedRelationFields : NormalizeError → Bool
  | .unresolvedRelationFields .. => true
  | _ => false

end NormalizeError
end Schemata
