import Schemata.Yaml.Quoted
/-!
# Names, anchors and tags

What may stand in front of a node, or in place of it: the name that aliases know it by, and a tag
that says what it is. A tag is a handle, which directives give a meaning, and a suffix, or it is
written out in full between angle brackets.
-/

namespace Schemata.Yaml

/-- The characters of anchors and aliases. -/
def isAnchorChar (c : Char) : Bool := !(isGap c || isFlowIndicator c || c = '\ufeff')

/-- The characters of a tag that is written out in full. -/
def isUriChar (c : Char) : Bool :=
  c.isAlphanum || c ∈ ['-', '#', ';', '/', '?', ':', '@', '&', '=', '+', '$', ',', '_', '.', '!',
    '~', '*', '\'', '(', ')', '[', ']', '%']

/-- The characters of the suffix of a tag. -/
def isTagChar (c : Char) : Bool := isUriChar c && !isFlowIndicator c && c ≠ '!'

/-- The name behind the mark of an anchor or an alias. -/
def readAnchor (s : Cursor) : Except Error (String × Cursor) :=
  let (name, s) := (s.drop 1).span isAnchorChar
  if name.isEmpty then .error .malformed else .ok (.ofList name, s)

/-- The byte that two hexadecimal digits behind a percent sign write, and the cursor behind it. -/
def readByte (s : Cursor) : Except Error (Nat × Cursor) :=
  if s.head? = some '%' then readCode 2 (s.drop 1) else .error .malformed

/-- How many bytes a character has of which the first byte is given. -/
def byteCount? (first : Nat) : Option Nat :=
  if first < 0x80 then some 1
  else if 0xC0 ≤ first ∧ first < 0xE0 then some 2
  else if 0xE0 ≤ first ∧ first < 0xF0 then some 3
  else if 0xF0 ≤ first ∧ first < 0xF8 then some 4
  else none

/-- The further bytes of a character, each of which adds its digits to the number before it. -/
def readFurtherBytes : (n : Nat) → (code : Nat) → Cursor → Except Error (Nat × Cursor)
  | 0, code, s => .ok (code, s)
  | n + 1, code, s => do
    let (byte, s) ← readByte s
    if 0x80 ≤ byte ∧ byte < 0xC0 then readFurtherBytes n (0x100 * code + byte) s
    else .error .malformed

/-- The character that stands next in a tag as one or more escaped bytes. -/
def readEscapedBytes (s : Cursor) : Except Error (Char × Cursor) := do
  let (first, s) ← readByte s
  match byteCount? first with
  | none => .error .malformed
  | some n =>
    let (code, s) ← readFurtherBytes (n - 1) first s
    if code.isValidChar then return (.ofNat code, s) else .error .malformed

/-- The characters of a class that stand next in a tag, with their escapes resolved. -/
def readUriChars (p : Char → Bool) : (fuel : Nat) → Cursor → Except Error (List Char × Cursor)
  | 0, _ => .error .malformed
  | fuel + 1, s =>
    match s.rest with
    | [] => .ok ([], s)
    | c :: _ =>
      if !p c then .ok ([], s)
      else do
        let (d, s) ← if c = '%' then readEscapedBytes s else .ok (c, s.drop 1)
        let (ds, s) ← readUriChars p fuel s
        return (d :: ds, s)

/-- All the characters of a class that stand next in a tag. -/
def readUri (p : Char → Bool) (s : Cursor) : Except Error (List Char × Cursor) :=
  readUriChars p (s.rest.length + 1) s

/-- A mark and a name, and the mark behind it if there is one. -/
def readHandle (s : Cursor) : Except Error (List Char × Cursor) :=
  if s.head? ≠ some '!' then .error .malformed
  else
    let (name, s) := (s.drop 1).span isNameChar
    if s.head? = some '!' then .ok ('!' :: name ++ ['!'], s.drop 1) else .ok ('!' :: name, s)

/-- Whether a handle has marks on both sides. -/
def isFullHandle (handle : List Char) : Bool :=
  2 ≤ handle.length && handle.getLast? = some '!'

/-- A tag as its handle and its suffix. What has a mark on its left only belongs to the suffix. -/
def readTagParts (s : Cursor) : Except Error (List Char × List Char × Cursor) := do
  if (s.drop 1).head? = some '<' then
    let (name, s) ← readUri isUriChar (s.drop 2)
    if s.head? = some '>' then return ([], name, s.drop 1) else .error .malformed
  else
    let (handle, s) ← readHandle s
    let (suffix, s) ← readUri isTagChar s
    if isFullHandle handle then
      if suffix.isEmpty then .error .malformed else return (handle, suffix, s)
    else
      match handle.drop 1 ++ suffix with
      | [] => return ([], ['!'], s)
      | suffix => return (['!'], suffix, s)

/-- The tag that starts here. A gap follows it, or in a flow collection the characters of that. -/
def readTag (flow : Bool) (s : Cursor) : Except Error (String × String × Cursor) := do
  let (handle, suffix, s) ← readTagParts s
  if Cursor.isOpen s.rest || (flow && s.head?.any isFlowIndicator) then
    return (.ofList handle, .ofList suffix, s)
  else .error .malformed

end Schemata.Yaml
