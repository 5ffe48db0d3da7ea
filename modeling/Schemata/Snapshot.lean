import Schemata.File.Path
import Schemata.Graph.JsonText
import Schemata.Graph.YamlText
/-!
# Snapshots

The text of a graph, in one of two formats that the name of its file tells apart.
-/

namespace Schemata.Snapshot

inductive Format where
  | json
  | yaml
deriving DecidableEq

/-- The format of the file of a path: JSON by its extension, in any mix of letter cases, and YAML
for any other. -/
def Format.ofPath (path : String) : Format :=
  match Path.extension? path with
  | some extension => if extension.toLower = "json" then .json else .yaml
  | none => .yaml

/-- Why a text is no snapshot. -/
inductive Error where
  | json (error : Json.Error)
  | yaml (error : Yaml.Error)

def Error.message : Error → String
  | .json _ => "Invalid JSON schema graph"
  | .yaml _ => "Invalid YAML schema graph"

/-- The graph of a text in a format. -/
def read (format : Format) (text : String) : Except Error Graph :=
  match format with
  | .json => (Graph.ofJsonText text).mapError .json
  | .yaml => (Graph.ofYamlText text).mapError .yaml

end Schemata.Snapshot
