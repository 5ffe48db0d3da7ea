import Schemata.Yaml.Node
/-!
# Places in a YAML text

YAML counts lines and columns, so its readers carry the place of the next character along with
the rest of the text. Every line of the text ends in a single line break.
-/

namespace Schemata.Yaml

def isBlank (c : Char) : Bool := c = ' ' || c = '\t'

def isGap (c : Char) : Bool := isBlank c || c = '\n'

/-- The characters that separate and enclose the parts of flow collections. -/
def isFlowIndicator (c : Char) : Bool :=
  c = ',' || c = '[' || c = ']' || c = '\x7b' || c = '\x7d'

/-- The letters, digits and marks of the names of directives and of tag handles. -/
def isNameChar (c : Char) : Bool := c.isAlphanum || c = '_' || c = '-'

/-- Where the next character of a text stands. -/
structure Place where
  /-- In bytes of UTF-8. -/
  offset : Nat
  line : Nat
  column : Nat
  /-- Only blanks stand before it on its line. -/
  fresh : Bool

namespace Place

def start : Place := ⟨0, 0, 0, true⟩

/-- The place behind a character. -/
def after (p : Place) (c : Char) : Place :=
  if c = '\n' then ⟨p.offset + 1, p.line + 1, 0, true⟩
  else ⟨p.offset + c.utf8Size, p.line, p.column + 1, p.fresh && isBlank c⟩

end Place

/-- A text from some place on. -/
structure Cursor where
  rest : List Char
  place : Place

namespace Cursor

def column (s : Cursor) : Nat := s.place.column

def line (s : Cursor) : Nat := s.place.line

def fresh (s : Cursor) : Bool := s.place.fresh

def head? (s : Cursor) : Option Char := s.rest.head?

/-- The cursor behind the next `n` characters. -/
def drop : Nat → Cursor → Cursor
  | n + 1, ⟨c :: cs, p⟩ => drop n ⟨cs, p.after c⟩
  | _, s => s

/-- The longest run of characters of a class that stands next, and the cursor behind it. -/
def span (p : Char → Bool) (s : Cursor) : List Char × Cursor :=
  let cs := s.rest.takeWhile p
  (cs, s.drop cs.length)

/-- Whether a text leaves the character before it alone: a gap follows, or nothing. -/
def isOpen : List Char → Bool
  | [] => true
  | c :: _ => isGap c

/-- Whether a line ends here. -/
def atBreak (s : Cursor) : Bool := s.rest.isEmpty || s.head? = some '\n'

/-- Whether the next character stands alone. -/
def isIndicator (s : Cursor) : Bool := isOpen (s.rest.drop 1)

/-- Whether three times a character stand next, and then a gap. -/
def atTriple (s : Cursor) (c : Char) : Bool :=
  match s.rest with
  | x :: y :: z :: rest => x = c && y = c && z = c && isOpen rest
  | _ => false

/-- Whether the marks that begin or end a document stand next. -/
def atMarks (s : Cursor) (c : Char) : Bool := s.column = 0 && s.atTriple c

/-- Whether a document ends or another one begins here. -/
def atDocumentMarks (s : Cursor) : Bool := s.atMarks '-' || s.atMarks '.'

/-- The cursor at the end of the line. -/
def toBreak (s : Cursor) : Cursor := (s.span (· ≠ '\n')).2

/-- Passes the blanks on a line and a comment behind them: the blanks, and the cursor behind it
all. Tabs are blanks unless they are excluded; a comment needs a blank in front. -/
def skipBlanks (tabs : Bool) (s : Cursor) : Except Error (List Char × Cursor) :=
  let (gap, s) := s.span fun c => c = ' ' || (tabs && c = '\t')
  match s.head? with
  | some '#' => if gap.isEmpty then .error .malformed else .ok (gap, s.toBreak)
  | _ => .ok (gap, s)

/-- Passes white space and comments, inside a comment or not. Once a tab has been found where it
may not indent, nothing else may stand on its line. -/
def skipFrom (indent : Int) : (comment tab : Bool) → Place → List Char → Except Error Cursor
  | _, _, p, [] => .ok ⟨[], p⟩
  | comment, tab, p, c :: cs =>
    if c = '\n' then skipFrom indent false false (p.after c) cs
    else if comment then skipFrom indent true false (p.after c) cs
    else if isBlank c then
      let tab := tab || (c = '\t' && p.fresh && (p.column : Int) < indent)
      skipFrom indent false tab (p.after c) cs
    else if c = '#' then skipFrom indent true false (p.after c) cs
    else if tab then .error .malformed
    else .ok ⟨c :: cs, p⟩

/-- Passes white space and comments up to the next character that says something. A tab left of
column `indent` may not indent a line. -/
def skip (indent : Int) (s : Cursor) : Except Error Cursor :=
  skipFrom indent false false s.place s.rest

/-- Passes spaces, line breaks and comments. -/
def skipSpaces : (comment : Bool) → Place → List Char → Cursor
  | _, p, [] => ⟨[], p⟩
  | comment, p, c :: cs =>
    if c = '\n' then skipSpaces false (p.after c) cs
    else if comment || c = '#' then skipSpaces true (p.after c) cs
    else if c = ' ' then skipSpaces false (p.after c) cs
    else ⟨c :: cs, p⟩

end Cursor

/-- What line breaks inside a scalar come to: one is a space, each further one a line break. -/
def folded (breaks : Nat) : List Char :=
  if breaks = 1 then [' '] else List.replicate (breaks - 1) '\n'

end Schemata.Yaml
