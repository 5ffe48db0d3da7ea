import Schemata.Yaml.Lexer
/-!
# Reading nodes from tokens

How the tokens of a document come together to nodes. Aliases are followed as they are read: a name
stands for the last node before it that has the name. There are limits to how many nodes there are
and to how deep they are nested.
-/

namespace Schemata.Yaml

/-- A node with a name. -/
structure Anchored where
  node : Node
  /-- How many nodes it consists of, itself included. -/
  size : Nat

/-- The tokens that are left, and what those before them have said. -/
structure Reader where
  tokens : List Token
  /-- What the handles of tags stand for. -/
  handles : List (String × String)
  /-- The names of nodes in the order of the text, and the nodes themselves once they have been
  read. -/
  anchors : Array (String × Option Anchored)
  /-- How many aliases there were. -/
  aliases : Nat
  /-- How many nodes there were, those that aliases stand for included. -/
  size : Nat
  /-- How many collections have begun and not ended. -/
  depth : Nat

abbrev Read (α : Type) := StateT Reader (Except Error) α

namespace Reader

def peek : Read Token := do
  match (← get).tokens with
  | [] => throw .malformed
  | token :: _ => return token

def advance : Read Unit := modify fun s => { s with tokens := s.tokens.drop 1 }

/-- Passes the token that has to come next. -/
def expect (token : Token) : Read Unit := do
  if (← peek) = token then advance else throw .malformed

/-- What a handle of tags stands for. Only the handles of YAML itself need no directive. -/
def meaningOf (handles : List (String × String)) (handle : String) : Except Error String :=
  match handles.lookup handle with
  | some meaning => .ok meaning
  | none =>
    if handle = "!!" then .ok Tag.core
    else if isFullHandle handle.toList then .error (.unknownHandle handle)
    else .ok handle

/-- Passes a name in front of a node, and gives the number of the name. -/
def readName? : Read (Option Nat) := do
  match ← peek with
  | .anchor name =>
    advance
    let number := (← get).anchors.size
    modify fun s => { s with anchors := s.anchors.push (name, none) }
    return some number
  | _ => return none

def readTag? : Read (Option Tag) := do
  match ← peek with
  | .tag handle suffix =>
    advance
    return some (.ofParts (← meaningOf (← get).handles handle) suffix)
  | _ => return none

/-- What stands in front of a node. -/
structure Properties where
  name : Option Nat
  tag : Option Tag

/-- The name and the tag in front of a node, in either order. -/
def readProperties : Read Properties := do
  match ← readName? with
  | some number => return ⟨some number, ← readTag?⟩
  | none =>
    match ← readTag? with
    | some tag => return ⟨← readName?, some tag⟩
    | none => return ⟨none, none⟩

/-- Gives the node that has been read the name in front of it. Before the node, the size of all was
`before`. -/
def setName (p : Properties) (before : Nat) (node : Node) : Read Unit :=
  match p.name with
  | some number => modify fun s =>
    { s with anchors := s.anchors.modify number fun (name, _) =>
        (name, some ⟨node, s.size - before⟩) }
  | none => return

/-- How many nodes a text may have. -/
def sizeLimit : Nat := 250000

/-- Counts some nodes. -/
def count (nodes : Nat) : Read Unit := do
  modify fun s => { s with size := s.size + nodes }
  if sizeLimit < (← get).size then throw .tooLarge

/-- The node that an alias stands for. A node does not contain itself. -/
def follow (name : String) : Read Node := do
  match (← get).anchors.toList.reverse.lookup name with
  | some (some ⟨node, size⟩) =>
    modify fun s => { s with aliases := s.aliases + 1 }
    count size
    return node
  | _ => throw (.unknownAlias name)

/-- How deep collections may be nested. -/
def depthLimit : Nat := 2000

/-- Passes the beginning of a collection and reads on to its end. -/
def readNested {α : Type} (read : Read α) : Read α := do
  count 1
  modify fun s => { s with depth := s.depth + 1 }
  if depthLimit < (← get).depth then throw .tooDeep
  let a ← read
  modify fun s => { s with depth := s.depth - 1 }
  return a

/-- Counts a scalar. -/
def countScalar (node : Node) : Read Node := do
  count 1
  return node

/-- A node that consists of its name and its tag only. -/
def emptyNode (p : Properties) : Read Node :=
  if p.name.isNone && p.tag.isNone then throw .malformed
  else countScalar (.scalar .plain (p.tag.getD .untagged) "")

/-- Nothing, if one of the given tokens comes next, or else what a reader makes of the node. -/
def readUnless (ends : List Token) (read : Read Node) : Read Node := do
  if (← peek) ∈ ends then countScalar .empty else read

/-- The node behind a colon; nothing if there is no colon. -/
def readValue (ends : List Token) (read : Read Node) : Read Node := do
  if (← peek) = .value then
    advance
    readUnless ends read
  else countScalar .empty

/-- The tokens in front of which a part of a block mapping may be left out. -/
def blockEnds : List Token := [.key, .value, .blockEnd]

mutual

/-- A node; if `block` holds, it may be a block collection, and if `indentless` holds, a sequence
whose dashes stand at the column of the keys around it. -/
def readNode : (fuel : Nat) → (block indentless : Bool) → Read Node
  | 0, _, _ => throw .malformed
  | fuel + 1, block, indentless => do
    match ← peek with
    | .reference name =>
      advance
      follow name
    | _ =>
      let p ← readProperties
      let before := (← get).size
      let node ← readContent fuel block indentless p
      setName p before node
      return node

/-- A node without what stands in front of it. -/
def readContent : (fuel : Nat) → (block indentless : Bool) → Properties → Read Node
  | 0, _, _, _ => throw .malformed
  | fuel + 1, block, indentless, p => do
    match ← peek with
    | .scalar style text =>
      advance
      countScalar (.scalar style (p.tag.getD .untagged) text)
    | .flowSequenceStart =>
      advance
      return .sequence (← readNested (readFlowItems fuel true))
    | .flowMappingStart =>
      advance
      return .mapping (← readNested (readFlowEntries fuel true))
    | .blockEntry =>
      if indentless then return .sequence (← readNested (readIndentlessItems fuel))
      else emptyNode p
    | .blockSequenceStart =>
      if block then
        advance
        return .sequence (← readNested (readBlockItems fuel))
      else emptyNode p
    | .blockMappingStart =>
      if block then
        advance
        return .mapping (← readNested (readBlockEntries fuel))
      else emptyNode p
    | _ => emptyNode p

def readBlockItems : (fuel : Nat) → Read (List Node)
  | 0 => throw .malformed
  | fuel + 1 => do
    if (← peek) = .blockEnd then
      advance
      return []
    expect .blockEntry
    let item ← readUnless [.blockEntry, .blockEnd] (readNode fuel true false)
    return item :: (← readBlockItems fuel)

def readIndentlessItems : (fuel : Nat) → Read (List Node)
  | 0 => throw .malformed
  | fuel + 1 => do
    if (← peek) = .blockEntry then
      advance
      let item ← readUnless (.blockEntry :: blockEnds) (readNode fuel true false)
      return item :: (← readIndentlessItems fuel)
    else return []

def readBlockEntries : (fuel : Nat) → Read (List (Node × Node))
  | 0 => throw .malformed
  | fuel + 1 => do
    match ← peek with
    | .blockEnd =>
      advance
      return []
    | .key =>
      advance
      let key ← readUnless blockEnds (readNode fuel true true)
      let value ← readValue blockEnds (readNode fuel true true)
      return (key, value) :: (← readBlockEntries fuel)
    | .value =>
      let key ← countScalar .empty
      let value ← readValue blockEnds (readNode fuel true true)
      return (key, value) :: (← readBlockEntries fuel)
    | _ => throw .malformed

/-- The items of a flow sequence behind its bracket, or behind one of its items. -/
def readFlowItems : (fuel : Nat) → (first : Bool) → Read (List Node)
  | 0, _ => throw .malformed
  | fuel + 1, first => do
    if (← peek) = .flowSequenceEnd then
      advance
      return []
    unless first do expect .flowEntry
    match ← peek with
    | .flowSequenceEnd =>
      advance
      return []
    | .key =>
      advance
      let pair ← readNested (readPair fuel)
      return .mapping [pair] :: (← readFlowItems fuel false)
    | _ =>
      let item ← readNode fuel false false
      return item :: (← readFlowItems fuel false)

/-- A pair in a flow sequence behind its question mark. A colon directly behind that belongs to
it. -/
def readPair : (fuel : Nat) → Read (Node × Node)
  | 0 => throw .malformed
  | fuel + 1 => do
    let ends := [.flowEntry, .flowSequenceEnd]
    if (← peek) ∈ .value :: ends then
      advance
      let key ← countScalar .empty
      return (key, ← readValue ends (readNode fuel false false))
    else
      let key ← readNode fuel false false
      return (key, ← readValue ends (readNode fuel false false))

/-- The entries of a flow mapping behind its brace, or behind one of its entries. -/
def readFlowEntries : (fuel : Nat) → (first : Bool) → Read (List (Node × Node))
  | 0, _ => throw .malformed
  | fuel + 1, first => do
    if (← peek) = .flowMappingEnd then
      advance
      return []
    unless first do expect .flowEntry
    let ends := [.flowEntry, .flowMappingEnd]
    match ← peek with
    | .flowMappingEnd =>
      advance
      return []
    | .key =>
      advance
      let key ← readUnless (.value :: ends) (readNode fuel false false)
      let value ← readValue ends (readNode fuel false false)
      return (key, value) :: (← readFlowEntries fuel false)
    | .value =>
      let key ← countScalar .empty
      let value ← readValue ends (readNode fuel false false)
      return (key, value) :: (← readFlowEntries fuel false)
    | _ =>
      let key ← readNode fuel false false
      let value ← countScalar .empty
      return (key, value) :: (← readFlowEntries fuel false)

end

/-- Whether a node begins here. -/
def checkNode : Read Unit := do
  match ← peek with
  | .reference name => let _ ← follow name
  | _ =>
    let p ← readProperties
    match ← peek with
    | .scalar .. | .flowSequenceStart | .flowMappingStart | .blockSequenceStart
    | .blockMappingStart => return
    | _ => let _ ← emptyNode p

end Reader

end Schemata.Yaml
