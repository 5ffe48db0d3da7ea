import Schemata.Config.Basic
import Schemata.Yaml.Document
import Schemata.Yaml.Value
import Schemata.Yaml.Writer
/-!
# Configurations in YAML texts

A configuration is written as a mapping with its fields in a fixed order. All its texts are read
directly, so that a plain scalar keeps its text.
-/

namespace Schemata

namespace Outputs

def ofYaml (node : Yaml.Node) : Except Yaml.Error Outputs := do
  let fields ← node.readFields "OutputConfig" ["prisma", "types"]
  let path := Yaml.Node.readTextAs "path string"
  let prisma ← Yaml.Node.readField "prisma" path standard.prisma fields
  let types ← Yaml.Node.readField "types" path standard.types fields
  return ⟨prisma, types⟩

end Outputs

namespace Config

/-- A line with a field, at a depth of nesting, and behind it the text that is its value. -/
def yamlField (depth : Nat) (name : String) (value : List Char) : List Char :=
  List.replicate (2 * depth) ' ' ++ name.toList ++ ':' :: ' ' :: (value ++ ['\n'])

/-- A text as the value of a field. Its own lines are a level deeper than the field. -/
def yamlText (depth : Nat) (text : String) : List Char :=
  Yaml.writeScalar (2 * (depth + 1)) text.toList

def yamlOption (depth : Nat) : Option String → List Char
  | some text => yamlText depth text
  | none => ['n', 'u', 'l', 'l']

def yamlChars (c : Config) : List Char :=
  yamlField 0 "version" (yamlText 0 c.version) ++
  yamlField 0 "input" (yamlText 0 c.input) ++
  yamlField 0 "base_prelude" (yamlOption 0 c.basePrelude) ++
  "outputs:\n".toList ++
  yamlField 1 "prisma" (yamlText 1 c.outputs.prisma) ++
  yamlField 1 "types" (yamlText 1 c.outputs.types) ++
  yamlField 0 "unresolved_relations" (yamlText 0 c.unresolvedRelations.name)

/-- The configuration as a YAML text. -/
def toYaml (c : Config) : String := .ofList c.yamlChars

def ofYaml (node : Yaml.Node) : Except Yaml.Error Config := do
  let fields ← node.readFields "Config"
    ["version", "input", "base_prelude", "outputs", "unresolved_relations"]
  let path := Yaml.Node.readTextAs "path string"
  let version ← Yaml.Node.requireField "version" (·.readTextAs "a string") fields
  let input ← Yaml.Node.readField "input" path standard.input fields
  let basePrelude ← Yaml.Node.readField "base_prelude" (·.readOption path) none fields
  let outputs ← Yaml.Node.readField "outputs" Outputs.ofYaml .standard fields
  let policy := Yaml.Node.readNamed "UnresolvedRelationPolicy" UnresolvedPolicy.named
  let unresolvedRelations ← Yaml.Node.readField "unresolved_relations" policy .warn fields
  return { version, input, basePrelude, outputs, unresolvedRelations }

/-- The configuration of a YAML text. -/
def ofYamlText (text : String) : Except Yaml.Error Config := do ofYaml (← Yaml.ofText text)

end Config
end Schemata
