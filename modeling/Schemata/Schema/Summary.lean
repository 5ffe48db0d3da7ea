import Schemata.Schema.Basic
/-!
# Summaries

What a schema holds, as lines for people.
-/

namespace Schemata.Schema

def modelLine (m : Model) : String :=
  s!"-> {m.canonicalName} ({m.columns.length} columns, {m.relations.length} relations)"

def enumLine (e : EnumType) : String := s!"-> {e.canonicalName} ({e.values.length} values)"

def relationLine (r : Relation) : String :=
  s!"* {r.sourceModel} <-> {r.referenceModel} " ++
    s!"[kind: {r.kindName}, direction: {r.direction.name}]"

def warningLines (warnings : List Warning) : List String :=
  if warnings.isEmpty then []
  else
    s!"WARNINGS ({warnings.length}):" :: (warnings.map fun w => s!"! {w.message}") ++ ["--"]

def summaryLines (models : List Model) (enums : List EnumType) (relations : List Relation)
    (warnings : List Warning) : List String :=
  ["===================================",
    "Successfully parsed schema graph!",
    "==================================="] ++
  s!"MODELS ({models.length}):" :: models.map modelLine ++
  "--" :: s!"ENUMS ({enums.length}):" :: enums.map enumLine ++
  "--" :: s!"RELATIONS ({relations.length}):" :: relations.map relationLine ++
  "--" :: warningLines warnings ++
  [">> RESULT <<:",
    s!"=> Models: {models.length}, enums: {enums.length}, relations: {relations.length}."]

/-- The summary of a schema of these parts. -/
def summarize (models : List Model) (enums : List EnumType) (relations : List Relation)
    (warnings : List Warning) : String :=
  String.join ((summaryLines models enums relations warnings).map (· ++ "\n"))

end Schemata.Schema
