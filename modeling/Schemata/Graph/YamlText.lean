import Schemata.Graph.Codec
import Schemata.Yaml.Document
import Schemata.Yaml.Value
/-!
# Graphs in YAML texts

A graph is a mapping with a version, which keeps its text however it looks, and a sequence of
entries, which are plain data apart from their kinds.
-/

namespace Schemata.Graph

namespace Entry

/-- A key and a value as data; the kind of an entry is a text however it looks. -/
def yamlPart (key value : Yaml.Node) : Except Yaml.Error (Datum × Datum) := do
  match ← key.toDatum with
  | .text name =>
    if name = Datum.tagName then
      return (.text name, .text (← value.readTextAs "variant identifier"))
    else return (.text name, ← value.toDatum)
  | d => return (d, ← value.toDatum)

/-- An entry as data. -/
def yamlDatum : Yaml.Node → Except Yaml.Error Datum
  | .mapping entries => do
    return .record (← (← Yaml.Node.merge entries).mapM fun (key, value) => yamlPart key value)
  | .sequence (item :: items) => do
    return .list (.text (← item.readTextAs "variant identifier") ::
      (← items.mapM Yaml.Node.toDatum))
  | node => node.toDatum

def ofYaml (node : Yaml.Node) : Except Yaml.Error Entry := do
  (Entry.read (← yamlDatum node)).mapError .mismatch

end Entry

/-- The entries of a graph; nothing is no entries. -/
def entriesOfYaml (node : Yaml.Node) : Except Yaml.Error (List Entry) := do
  (← node.readItems).mapM Entry.ofYaml

def ofYaml (node : Yaml.Node) : Except Yaml.Error Graph := do
  let fields ← node.readFields "SchemaGraph" ["version", "entries"]
  let version ← Yaml.Node.readField "version" (·.readOption (·.readTextAs "a string")) none fields
  let entries ← Yaml.Node.readField "entries" entriesOfYaml [] fields
  return ⟨version, entries⟩

/-- The graph of a YAML text. -/
def ofYamlText (text : String) : Except Yaml.Error Graph := do ofYaml (← Yaml.ofText text)

end Schemata.Graph
