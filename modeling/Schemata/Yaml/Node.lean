import Schemata.Fault
/-!
# YAML nodes

What a YAML text says once its aliases have been followed: scalars, sequences and mappings. Each
mapping still holds its entries in the order of the text, merge keys included.
-/

namespace Schemata.Yaml

/-- Why a text is no YAML document, or not the document that was wanted. -/
inductive Error where
  /-- Characters that cannot stand where they stand, or a text that ends too early. -/
  | malformed
  /-- A name in an alias that no node before it has. -/
  | unknownAlias (name : String)
  /-- A tag with a handle that no directive declares. -/
  | unknownHandle (handle : String)
  /-- Aliases out of all proportion to the names they refer to. -/
  | tooManyAliases
  /-- More nodes than a text may have, those that aliases repeat included. -/
  | tooLarge
  /-- Collections within collections beyond a limit. -/
  | tooDeep
  | duplicateKey
  /-- A merge key with something other than mappings behind it. -/
  | unmergeable
  /-- Several documents where one is wanted. -/
  | severalDocuments
  /-- The document has the wrong shape. -/
  | mismatch (fault : Fault)

/-- How a scalar is written. -/
inductive Style where
  | plain
  | quoted
  | block
deriving DecidableEq

/-- What a tag says that a scalar is. -/
inductive Tag where
  /-- There is no tag. -/
  | untagged
  /-- The tag `!`, by which a plain scalar is a text. -/
  | nonSpecific
  | null
  | bool
  | int
  | float
  | text
  | binary
  | timestamp
  | sequence
  | mapping
  /-- A tag of an application, with a mark between what its handle stands for and its suffix. -/
  | other (name : String)
deriving DecidableEq

namespace Tag

/-- The part of the names that all tags of YAML itself have in common. -/
def core : String := "tag:yaml.org,2002:"

/-- The tags of YAML itself by their names. -/
def named : List (String × Tag) :=
  [("!", .nonSpecific), (core ++ "null", .null), (core ++ "bool", .bool), (core ++ "int", .int),
    (core ++ "float", .float), (core ++ "str", .text), (core ++ "binary", .binary),
    (core ++ "timestamp", .timestamp), (core ++ "seq", .sequence), (core ++ "map", .mapping)]

/-- The tag of what a handle stands for and a suffix. -/
def ofParts (meaning suffix : String) : Tag :=
  match named.lookup (meaning ++ suffix) with
  | some tag => tag
  | none => .other (if meaning = "!" then "!" ++ suffix else meaning ++ "!" ++ suffix)

/-- The name of a type that the tag of an application says. -/
def typeName? (name : String) : Option String :=
  let cs := name.toList
  let cs := if core.toList.isPrefixOf cs then cs.drop core.length else cs
  let cs := cs.dropWhile (· = '!')
  if cs.isEmpty || ':' ∈ cs || '!' ∈ cs then none else some (.ofList cs)

/-- Whether tags mean the same. Those of applications mean nothing, and so they all do. -/
def same : Tag → Tag → Bool
  | .other _, .other _ => true
  | s, t => s = t

/-- Whether a scalar with the tag can be a text. -/
def admitsText : Tag → Bool
  | .untagged | .nonSpecific | .text | .other _ => true
  | _ => false

end Tag

inductive Node where
  | scalar (style : Style) (tag : Tag) (text : String)
  | sequence (items : List Node)
  | mapping (entries : List (Node × Node))

namespace Node

/-- The node that stands where nothing is written. -/
def empty : Node := .scalar .plain .untagged "~"

mutual

/-- Whether two nodes are the same as keys: scalars by their texts and tags, collections by their
parts. -/
def same : Node → Node → Bool
  | .scalar _ s x, .scalar _ t y => s.same t && x == y
  | .sequence xs, .sequence ys => sameItems xs ys
  | .mapping xs, .mapping ys => sameEntries xs ys
  | _, _ => false

def sameItems : List Node → List Node → Bool
  | [], [] => true
  | x :: xs, y :: ys => x.same y && sameItems xs ys
  | _, _ => false

def sameEntries : List (Node × Node) → List (Node × Node) → Bool
  | [], [] => true
  | (k, x) :: xs, (l, y) :: ys => k.same l && x.same y && sameEntries xs ys
  | _, _ => false

end

/-- Whether a plain text stands for nothing. -/
def isNullText (text : String) : Bool :=
  text.isEmpty || text == "~" || text.toLower == "null"

/-- Whether the node is a plain scalar that stands for nothing. -/
def isNull : Node → Bool
  | .scalar .plain _ text => isNullText text
  | _ => false

/-- Whether the node is no value where one may be left out: it stands for nothing by its text or
its tag, or it is empty and without quotes. -/
def isAbsent : Node → Bool
  | .scalar style tag text =>
    tag = .null || (style = .plain && isNullText text) || (style ≠ .quoted && text.isEmpty)
  | _ => false

end Node
end Schemata.Yaml
