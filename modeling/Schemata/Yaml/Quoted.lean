import Schemata.Yaml.Cursor
/-!
# Quoted scalars

A quoted scalar ends at its quote. Line breaks in it are folded, together with the blanks around
them. Only double quotes know escapes.
-/

namespace Schemata.Yaml

/-- The value of a hexadecimal digit. -/
def hexValue? (c : Char) : Option Nat :=
  if '0' ≤ c ∧ c ≤ '9' then some (c.toNat - '0'.toNat)
  else if 'a' ≤ c ∧ c ≤ 'f' then some (c.toNat - 'a'.toNat + 10)
  else if 'A' ≤ c ∧ c ≤ 'F' then some (c.toNat - 'A'.toNat + 10)
  else none

/-- The number that hexadecimal digits write. -/
def hexNumber? (digits : List Char) : Option Nat :=
  digits.foldlM (fun n c => (hexValue? c).map (16 * n + ·)) 0

/-- The character that a letter behind a backslash stands for. -/
def escaped? (c : Char) : Option Char :=
  match c with
  | '0' => some '\x00'
  | 'a' => some '\x07'
  | 'b' => some '\x08'
  | 't' => some '\t'
  | '\t' => some '\t'
  | 'n' => some '\n'
  | 'v' => some '\x0b'
  | 'f' => some '\x0c'
  | 'r' => some '\r'
  | 'e' => some '\x1b'
  | ' ' => some ' '
  | '"' => some '"'
  | '/' => some '/'
  | '\\' => some '\\'
  | 'N' => some '\u0085'
  | '_' => some '\u00a0'
  | 'L' => some '\u2028'
  | 'P' => some '\u2029'
  | _ => none

/-- How many digits the code of a character has behind a letter. -/
def codeLength? (c : Char) : Option Nat :=
  if c = 'x' then some 2 else if c = 'u' then some 4 else if c = 'U' then some 8 else none

/-- The number in the next `n` digits, and the cursor behind them. -/
def readCode (n : Nat) (s : Cursor) : Except Error (Nat × Cursor) :=
  let digits := s.rest.take n
  match hexNumber? digits with
  | some code => if digits.length = n then .ok (code, s.drop n) else .error .malformed
  | none => .error .malformed

def isHighSurrogate (n : Nat) : Bool := 0xD800 ≤ n && n ≤ 0xDBFF

def isLowSurrogate (n : Nat) : Bool := 0xDC00 ≤ n && n ≤ 0xDFFF

/-- The character of a code with `n` digits. A surrogate needs another one behind it. -/
def readCoded (n : Nat) (s : Cursor) : Except Error (Char × Cursor) := do
  let (code, s) ← readCode n s
  if n = 4 && isHighSurrogate code then
    match s.rest with
    | '\\' :: 'u' :: _ => do
      let (low, s) ← readCode 4 (s.drop 2)
      if isLowSurrogate low then
        return (.ofNat (0x10000 + (code - 0xD800) * 0x400 + (low - 0xDC00)), s)
      else .error .malformed
    | _ => .error .malformed
  else if code.isValidChar then return (.ofNat code, s)
  else .error .malformed

/-- The character of the escape that stands next. -/
def readEscape (s : Cursor) : Except Error (Char × Cursor) :=
  match s.rest with
  | _ :: c :: _ =>
    match codeLength? c, escaped? c with
    | some n, _ => readCoded n (s.drop 2)
    | none, some d => .ok (d, s.drop 2)
    | none, none => .error .malformed
  | _ => .error .malformed

/-- A run of characters of a quoted scalar without blanks: the characters, whether it ends in an
escaped line break, and the cursor behind it. -/
def quotedRun (quote : Char) : (fuel : Nat) → Cursor → Except Error (List Char × Bool × Cursor)
  | 0, _ => .error .malformed
  | fuel + 1, s =>
    match s.rest with
    | [] => .ok ([], false, s)
    | c :: cs =>
      if isGap c then .ok ([], false, s)
      else if c = quote then
        if quote = '\'' ∧ cs.head? = some '\'' then do
          let (run, broken, s) ← quotedRun quote fuel (s.drop 2)
          return (c :: run, broken, s)
        else .ok ([], false, s)
      else if c = '\\' ∧ quote = '"' then
        if cs.head? = some '\n' then .ok ([], true, s.drop 2)
        else do
          let (d, s) ← readEscape s
          let (run, broken, s) ← quotedRun quote fuel s
          return (d :: run, broken, s)
      else do
        let (run, broken, s) ← quotedRun quote fuel (s.drop 1)
        return (c :: run, broken, s)

/-- The white space inside a quoted scalar, of which the blanks `blanks` from back to front and
`breaks` line breaks have been passed, the first of them escaped if `escaped` holds: what it comes
to, the number of line breaks that were not escaped, and the cursor behind it. A tab may not
indent a line. -/
def quotedGap (indent : Int) (escaped : Bool) : (breaks : Nat) → (blanks : List Char) → Place →
    List Char → Except Error (List Char × Nat × Cursor)
  | breaks, blanks, p, c :: cs =>
    if c = '\n' then quotedGap indent escaped (breaks + 1) [] (p.after c) cs
    else if isBlank c then
      if escaped || 0 < breaks then
        if c = '\t' ∧ (p.column : Int) < indent then .error .malformed
        else quotedGap indent escaped breaks [] (p.after c) cs
      else quotedGap indent escaped breaks (c :: blanks) (p.after c) cs
    else .ok (quotedGapText breaks blanks, breaks, ⟨c :: cs, p⟩)
  | breaks, blanks, p, [] => .ok (quotedGapText breaks blanks, breaks, ⟨[], p⟩)
where
  quotedGapText (breaks : Nat) (blanks : List Char) : List Char :=
    if escaped then List.replicate breaks '\n'
    else if breaks = 0 then blanks.reverse
    else folded breaks

/-- The rest of a quoted scalar, from behind its first quote or from one of its runs on. A line of
it that says something is indented, unless it is in a flow collection. -/
def readQuotedFrom (quote : Char) (flow : Bool) (indent : Int) :
    (fuel : Nat) → Cursor → Except Error (List Char × Cursor)
  | 0, _ => .error .malformed
  | fuel + 1, s => do
    if s.rest.isEmpty || s.atDocumentMarks then .error .malformed
    let (run, broken, s) ← quotedRun quote (fuel + 1) s
    if s.head? = some quote && !broken then return (run, s.drop 1)
    let (gap, breaks, s) ← quotedGap indent broken 0 [] s.place s.rest
    if !flow && !broken && 0 < breaks && s.head? ≠ some quote && (s.column : Int) ≤ indent then
      .error .malformed
    let (more, s) ← readQuotedFrom quote flow indent fuel s
    return (run ++ gap ++ more, s)

/-- Whether a text may follow a quoted scalar of which the first line is `line`. In a block
collection one on a single line may be a key. -/
def mayFollowQuoted (flow : Bool) (line : Nat) (s : Cursor) : Bool :=
  match s.head? with
  | none => true
  | some c =>
    c = '\n' || (c = ':' && (flow || s.line = line)) ||
      (flow && (c = ',' || c = '\x7d' || c = ']'))

/-- The quoted scalar that starts here. At most `fuel` characters follow. -/
def readQuoted (fuel : Nat) (quote : Char) (flow : Bool) (indent : Int) (s : Cursor) :
    Except Error (String × Cursor) := do
  let (text, t) ← readQuotedFrom quote flow indent (2 * fuel + 2) (s.drop 1)
  let (_, t) ← t.skipBlanks true
  if mayFollowQuoted flow s.line t then return (.ofList text, t) else .error .malformed

end Schemata.Yaml
