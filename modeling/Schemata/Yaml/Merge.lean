import Schemata.Yaml.Node
/-!
# Merge keys

What a mapping says once its merge keys have been followed. A mapping has no key twice among its
own entries; of entries that it takes over from other mappings, the first one with a key counts.
-/

namespace Schemata.Yaml

namespace Node

/-- Whether a key takes over the entries of other mappings. -/
def isMergeKey : Node → Bool
  | .scalar .plain .untagged text => text == "<<"
  | _ => false

/-- Whether a key is among the keys of entries. -/
def hasKey (entries : List (Node × Node)) (key : Node) : Bool :=
  entries.any fun (k, _) => k.same key

def checkKeys : List (Node × Node) → Except Error Unit
  | [] => .ok ()
  | (key, _) :: entries => if hasKey entries key then .error .duplicateKey else checkKeys entries

/-- The entries that are not behind merge keys. -/
def ownEntries (entries : List (Node × Node)) : List (Node × Node) :=
  entries.filter fun (key, _) => !key.isMergeKey

mutual

/-- The entries of the node behind a merge key: those of a mapping, of which its own come first,
or those of the mappings in a sequence, of which those of the last one come first. -/
def mergedEntries : Node → Except Error (List (Node × Node))
  | .mapping entries => do return ownEntries entries ++ (← takenOver entries)
  | .sequence items => mergedItems items
  | node => if node.isNull then .ok [] else .error .unmergeable

def mergedItems : List Node → Except Error (List (Node × Node))
  | [] => .ok []
  | node :: nodes => do
    let entries ← mergedEntries node
    return (← mergedItems nodes) ++ entries

/-- The entries of the nodes behind merge keys, those of the last one first. -/
def takenOver : List (Node × Node) → Except Error (List (Node × Node))
  | [] => .ok []
  | (key, node) :: entries =>
    if key.isMergeKey then do
      let merged ← mergedEntries node
      return (← takenOver entries) ++ merged
    else takenOver entries

end

/-- Entries, and those among others with keys that have not occurred before. -/
def addNew (entries others : List (Node × Node)) : List (Node × Node) :=
  others.foldl (fun entries e => if hasKey entries e.1 then entries else entries ++ [e]) entries

/-- What a mapping with the given entries says. -/
def merge (entries : List (Node × Node)) : Except Error (List (Node × Node)) := do
  let own := ownEntries entries
  checkKeys own
  return addNew own (← takenOver entries)

mutual

/-- How many collections are nested in the node, itself included. -/
def depth : Node → Nat
  | .scalar .. => 0
  | .sequence items => depthOfItems items + 1
  | .mapping entries => depthOfEntries entries + 1

def depthOfItems : List Node → Nat
  | [] => 0
  | node :: nodes => Nat.max node.depth (depthOfItems nodes)

def depthOfEntries : List (Node × Node) → Nat
  | [] => 0
  | (key, value) :: entries => Nat.max (Nat.max key.depth value.depth) (depthOfEntries entries)

end

end Node

end Schemata.Yaml
