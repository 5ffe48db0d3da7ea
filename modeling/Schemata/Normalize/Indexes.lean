import Schemata.Normalize.Error
import Schemata.Schema.Basic
/-!
# Indexes of tables

An index is unique or normal by its kind or by its flag, which may not contradict each other;
without either it is normal.
-/

namespace Schemata

namespace IndexDeclaration

def ofFlag (unique : Bool) : IndexKind := if unique then .unique else .normal

/-- The kind that a declaration names, if it names one. -/
def namedKind (table : String) (d : IndexDeclaration) :
    Except NormalizeError (Option IndexKind) :=
  match d.kind with
  | none => .ok none
  | some kind =>
    if kind = "unique" then .ok (some .unique)
    else if kind = "normal" ∨ kind = "index" then .ok (some .normal)
    else .error (.unsupportedIndexKind table d.name kind)

/-- The index that a declaration on a table describes. -/
def toIndex (table : String) (d : IndexDeclaration) : Except NormalizeError Index :=
  if d.columns.isEmpty then .error (.ambiguousIndex table d.name "index has no columns")
  else do
    match ← d.namedKind table, d.unique with
    | some kind, some unique =>
      if kind = ofFlag unique then return ⟨kind, d.name, d.columns⟩
      else
        let named := d.kind.getD ""
        .error (.ambiguousIndex table d.name s!"kind '{named}' contradicts unique flag {unique}")
    | some kind, none => return ⟨kind, d.name, d.columns⟩
    | none, some unique => return ⟨ofFlag unique, d.name, d.columns⟩
    | none, none => return ⟨.normal, d.name, d.columns⟩

end IndexDeclaration

namespace TableDeclaration

/-- The indexes of a table in the order of their declaration. -/
def toIndexes (t : TableDeclaration) : Except NormalizeError (List Index) :=
  (t.indexes.getD []).mapM (IndexDeclaration.toIndex t.name)

end TableDeclaration
end Schemata
