import Schemata.Yaml.Node
/-!
# YAML tokens

The pieces that a YAML text consists of, among them the beginnings and ends of block collections
and the keys that only its layout shows.
-/

namespace Schemata.Yaml

inductive Token where
  | streamEnd
  | versionDirective
  | tagDirective (handle : String) (meaning : String)
  | otherDirective
  | documentStart
  | documentEnd
  | blockSequenceStart
  | blockMappingStart
  /-- A block collection ends. -/
  | blockEnd
  | flowSequenceStart
  | flowSequenceEnd
  | flowMappingStart
  | flowMappingEnd
  /-- The dash of an item. -/
  | blockEntry
  /-- The comma between the parts of a flow collection. -/
  | flowEntry
  | key
  | value
  | reference (name : String)
  | anchor (name : String)
  | tag (handle : String) (suffix : String)
  | scalar (style : Style) (text : String)
deriving DecidableEq

end Schemata.Yaml
