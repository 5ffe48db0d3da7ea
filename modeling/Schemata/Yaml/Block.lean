import Schemata.Yaml.Cursor
/-!
# Block scalars

A block scalar is a header and the indented lines below it. A literal block keeps its lines; in a
folded block, lines that are not indented further are joined. The header may say how deep the
block is indented and what becomes of the line breaks at its end.
-/

namespace Schemata.Yaml

/-- What becomes of the line breaks at the end of a block. -/
inductive Chomping where
  | clip
  | strip
  | keep
deriving DecidableEq

structure BlockHeader where
  folded : Bool
  chomping : Chomping
  /-- How much deeper than its parent the block is indented, if that is said. -/
  depth : Option Nat

namespace BlockHeader

def chomping? (c : Char) : Option Chomping :=
  if c = '+' then some .keep else if c = '-' then some .strip else none

def depth? (c : Char) : Option Nat :=
  if '1' ≤ c ∧ c ≤ '9' then some (c.toNat - '0'.toNat) else none

/-- The header at the front of a text behind its first character, and how long it is: a depth and
a chomping in either order. -/
def ofChars (folded : Bool) (cs : List Char) : BlockHeader × Nat :=
  let first := cs.head?
  let second := (cs.drop 1).head?
  match first.bind chomping?, first.bind depth? with
  | some chomping, _ =>
    match second.bind depth? with
    | some n => (⟨folded, chomping, some n⟩, 2)
    | none => (⟨folded, chomping, none⟩, 1)
  | none, some n =>
    match second.bind chomping? with
    | some chomping => (⟨folded, chomping, some n⟩, 2)
    | none => (⟨folded, .clip, some n⟩, 1)
  | none, none => (⟨folded, .clip, none⟩, 0)

end BlockHeader

/-- Passes the indentation of a line of a block, and the lines before it that hold no more than
that: how many these are, and the cursor behind it. -/
def skipIndent (indent : Nat) : (fuel : Nat) → Cursor → Nat × Cursor
  | 0, s => (0, s)
  | fuel + 1, s =>
    let spaces := (s.rest.takeWhile (· = ' ')).length
    let s := s.drop (Nat.min spaces (indent - s.column))
    match s.rest with
    | '\n' :: _ =>
      let (breaks, s) := skipIndent indent fuel (s.drop 1)
      (breaks + 1, s)
    | _ => (0, s)

/-- Passes the indentation of the first line of a block with content, and the lines before it that
are blank: how many these are, the depth of the deepest line, and the cursor behind it. -/
def findIndent : (fuel : Nat) → Cursor → Nat × Nat × Cursor
  | 0, s => (0, 0, s)
  | fuel + 1, s =>
    let (_, s) := s.span (· = ' ')
    match s.rest with
    | '\n' :: _ =>
      let (breaks, deepest, next) := findIndent fuel (s.drop 1)
      (breaks + 1, Nat.max s.column deepest, next)
    | _ => (0, s.column, s)

/-- How the text of a block ends. -/
structure BlockEnd where
  /-- The last line with content ends in a line break. -/
  broken : Bool
  /-- The number of blank lines behind it. -/
  blanks : Nat

/-- What stands between two lines of a block. The first line with content has nothing but blank
lines before it. Lines that are indented further, before or behind, are not joined. -/
def blockJoint (folded broken deeperBefore deeper : Bool) (blanks : Nat) : List Char :=
  if folded && broken && !deeperBefore && !deeper then Yaml.folded (blanks + 1)
  else List.replicate (if broken then blanks + 1 else blanks) '\n'

/-- The lines of a block from one of them on, behind its indentation: their text, how it ends, and
the cursor behind it. -/
def readBlockLines (folded : Bool) (indent : Nat) : (fuel : Nat) → (last : BlockEnd) →
    (deeperBefore : Bool) → Cursor → List Char × BlockEnd × Cursor
  | 0, last, _, s => ([], last, s)
  | fuel + 1, last, deeperBefore, s =>
    if s.column ≠ indent || s.rest.isEmpty || (indent = 0 && s.atMarks '.') then ([], last, s)
    else
      let deeper := s.head?.any isBlank
      let joint := blockJoint folded last.broken deeperBefore deeper last.blanks
      let (line, s) := s.span (· ≠ '\n')
      if s.rest.isEmpty then (joint ++ line, ⟨false, 0⟩, s)
      else
        let (blanks, s) := skipIndent indent fuel (s.drop 1)
        let (more, last, s) := readBlockLines folded indent fuel ⟨true, blanks⟩ deeper s
        (joint ++ line ++ more, last, s)

/-- The line breaks at the end of a block whose indentation is `indent`. A text that ends in the
middle of a line of the block has a line break there. -/
def blockEnding (chomping : Chomping) (indent : Nat) (last : BlockEnd) (s : Cursor) : List Char :=
  let broken := if last.broken then ['\n'] else []
  let implied := if s.rest.isEmpty && Nat.max indent 1 ≤ s.column then ['\n'] else []
  match chomping with
  | .strip => []
  | .clip => broken ++ implied
  | .keep => broken ++ implied ++ List.replicate last.blanks '\n'

/-- The text of a block without content at the end of a text: `breaks` blank lines follow the
header, if its line is ended at all. -/
def emptyBlock (chomping : Chomping) (ended : Bool) (breaks : Nat) : List Char :=
  match chomping, ended with
  | .strip, _ => []
  | _, false => []
  | .clip, true => ['\n']
  | .keep, true => List.replicate (Nat.max breaks 1) '\n'

/-- The block scalar that starts here, in a collection whose parts start at column `outer`. At most
`fuel` characters follow. -/
def readBlock (fuel : Nat) (outer : Int) (s : Cursor) : Except Error (String × Cursor) := do
  let (header, length) := BlockHeader.ofChars (s.head? = some '>') (s.rest.drop 1)
  let (_, t) ← (s.drop (1 + length)).skipBlanks true
  unless t.atBreak do .error .malformed
  let t := t.drop 1
  if t.head? = some '\t' then .error .malformed
  let fuel := 2 * fuel + 2
  let (breaks, indent, t) :=
    match header.depth with
    | some n =>
      let indent := outer.toNat + n
      let (breaks, t) := skipIndent indent fuel t
      (breaks, indent, t)
    | none =>
      let (breaks, deepest, t) := findIndent fuel t
      (breaks, Nat.max deepest (outer + 1).toNat, t)
  if t.rest.isEmpty then
    return (.ofList (emptyBlock header.chomping (s.line < t.line) breaks), t)
  if t.column < indent ∧ outer < t.column then .error .malformed
  let (text, last, t) := readBlockLines header.folded indent fuel ⟨false, breaks⟩ false t
  return (.ofList (text ++ blockEnding header.chomping indent last t), t)

end Schemata.Yaml
