import Schemata.Yaml.Cursor
/-!
# Plain scalars

A plain scalar has no quotes. It ends where a line says something else: at a colon or a comment
behind it, and in a flow collection at the characters of that. It goes on over the following lines
as long as these are indented.
-/

namespace Schemata.Yaml

/-- Whether the character in front of a text belongs to a plain scalar. -/
def isPlainChar (flow : Bool) (c : Char) (cs : List Char) : Bool :=
  !(c = ':' && (Cursor.isOpen cs || (flow && cs.head?.any isFlowIndicator))) &&
    !(flow && isFlowIndicator c)

/-- The word of a plain scalar that stands next; it holds no blanks. -/
def plainWord (flow : Bool) : List Char → List Char
  | [] => []
  | c :: cs => if isGap c || !isPlainChar flow c cs then [] else c :: plainWord flow cs

/-- The gap between two words of a plain scalar, of which `breaks` line breaks have been passed
and then, or before any of them, the blanks `blanks` from back to front. A line that a tab indents
holds nothing else but a comment. What the gap comes to between two words, and the cursor behind
it. -/
def plainGap (indent : Int) : (breaks : Nat) → (blanks : List Char) → (comment tab : Bool) →
    Place → List Char → Except Error (List Char × Cursor)
  | breaks, blanks, comment, tab, p, c :: cs =>
    if c = '\n' then plainGap indent (breaks + 1) [] false false (p.after c) cs
    else if comment then plainGap indent breaks blanks true tab (p.after c) cs
    else if isBlank c then
      let tab := tab || (c = '\t' && 0 < breaks && (p.column : Int) < indent)
      plainGap indent breaks (c :: blanks) false tab (p.after c) cs
    else if tab then
      if c = '#' then plainGap indent breaks blanks true tab (p.after c) cs
      else .error .malformed
    else .ok (if breaks = 0 then blanks.reverse else folded breaks, ⟨c :: cs, p⟩)
  | breaks, blanks, _, _, p, [] =>
    .ok (if breaks = 0 then blanks.reverse else folded breaks, ⟨[], p⟩)

/-- Whether a plain scalar ends in front of a word: at a comment, and at the marks of documents
even where they are indented. -/
def endsPlain (s : Cursor) : Bool :=
  s.head? = some '#' || (s.fresh && (s.atTriple '-' || s.atTriple '.'))

/-- A plain scalar from one of its words on, with `gap` between it and the word before. -/
def readPlainFrom (flow : Bool) (indent : Int) :
    (fuel : Nat) → (gap : List Char) → Cursor → Except Error (List Char × Cursor)
  | 0, _, _ => .error .malformed
  | fuel + 1, gap, s => do
    if endsPlain s then return ([], s)
    match s.rest with
    | '-' :: c :: _ => if flow && isFlowIndicator c then .error .malformed
    | _ => pure ()
    let word := plainWord flow s.rest
    let text := if word.isEmpty then [] else gap ++ word
    let s := s.drop word.length
    if !s.head?.any isGap then return (text, s)
    let (gap, s) ← plainGap indent 0 [] false false s.place s.rest
    if !flow && (s.column : Int) < indent then return (text, s)
    let (more, s) ← readPlainFrom flow indent fuel gap s
    return (text ++ more, s)

/-- The plain scalar that starts here. Its further lines start at column `indent` or right of it,
unless it is in a flow collection. It has fewer than `fuel` words. -/
def readPlain (fuel : Nat) (flow : Bool) (indent : Int) (s : Cursor) :
    Except Error (String × Cursor) := do
  if flow && (s.column : Int) < indent then .error .malformed
  let (text, s) ← readPlainFrom flow indent fuel [] s
  if text.isEmpty then .error .malformed else return (.ofList text, s)

end Schemata.Yaml
