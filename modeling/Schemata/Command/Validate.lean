import Schemata.Command.Project
import Schemata.Schema.Validation
/-!
# Reports on validations

The outcome of a validation as a text: the errors with their suggestions, the warnings, and how
much there is of what in the schema.
-/

namespace Schemata

namespace Report

/-- A numbered error, and how it could be mended. -/
def errorText (number : Nat) (e : Finding) : String :=
  let suggestion := (e.suggestion.map fun s => s!"   Suggestion: {s}\n").getD ""
  s!"{number}. {e.format}\n{suggestion}\n"

/-- Errors, numbered from a number on. -/
def errorTexts (number : Nat) : List Finding → String
  | [] => ""
  | e :: es => errorText number e ++ errorTexts (number + 1) es

def errorSection (colored : Bool) (errors : List Finding) : String :=
  if errors.isEmpty then ""
  else
    let mark := Text.Paint.red.apply colored "✗"
    s!"{mark} {errors.length} error(s) found:\n\n{errorTexts 1 errors}"

def warningSection (colored : Bool) (warnings : List Notice) : String :=
  if warnings.isEmpty then ""
  else
    let mark := Text.Paint.yellow.apply colored "⚠"
    let lines := String.join (warnings.map fun w => s!"- {w.format}\n")
    s!"{mark} {warnings.length} warning(s) found:\n\n{lines}\n"

/-- How many of each kind of things a schema has. -/
def statistics (s : Schema) : String :=
  let columns := (s.models.flatMap (·.columns)).length
  let indexes := (s.models.flatMap (·.indexes)).length
  s!"Models: {s.models.length}\nColumns: {columns}\nIndexes: {indexes}\n" ++
    s!"Enums: {s.enums.length}\nRelations: {s.relations.length}\n"

def verdict (colored : Bool) (r : Report) : String :=
  if r.isValid then
    let mark := Text.Paint.green.apply colored "✓"
    s!"{mark} Validation complete. No errors found.\n"
  else
    let mark := Text.Paint.red.apply colored "✗"
    s!"{mark} Validation complete. {r.errors.length} error(s) found.\n"

/-- The report on a schema. -/
def format (colored : Bool) (r : Report) (s : Schema) : String :=
  "=== Schema Validation Results ===\n\n" ++
  errorSection colored r.errors ++
  warningSection colored r.warnings ++
  "=== Validation Statistics ===\n" ++
  statistics s ++
  "\n=== Result ===\n" ++
  verdict colored r

end Report
end Schemata
