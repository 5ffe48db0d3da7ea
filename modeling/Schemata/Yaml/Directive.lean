import Schemata.Yaml.Property
import Schemata.Yaml.Token
/-!
# Directives

A line in front of a document that begins with a percent sign. It says the version of YAML or what
a handle of tags stands for; directives of other names say nothing.
-/

namespace Schemata.Yaml

/-- A part of the version number. -/
def readVersionPart (s : Cursor) : Except Error Cursor :=
  let (digits, s) := s.span Char.isDigit
  if digits.isEmpty ∨ 9 < digits.length then .error .malformed else .ok s

/-- The version number of a directive. -/
def readVersion (s : Cursor) : Except Error (Token × Cursor) := do
  let s ← readVersionPart (s.span isBlank).2
  if s.head? = some '.' then return (.versionDirective, ← readVersionPart (s.drop 1))
  else .error .malformed

/-- What a handle of tags stands for. -/
def readHandleMeaning (s : Cursor) : Except Error (List Char × Cursor) := do
  match s.head? with
  | some '!' =>
    let (more, s) ← readUri isUriChar (s.drop 1)
    return ('!' :: more, s)
  | some c => if isTagChar c then readUri isUriChar s else .error .malformed
  | none => .error .malformed

/-- A handle of tags and its meaning. -/
def readTagDirective (s : Cursor) : Except Error (Token × Cursor) := do
  let (handle, s) ← readHandle (s.span isBlank).2
  if handle ≠ ['!'] && !isFullHandle handle then .error .malformed
  let (meaning, s) ← readHandleMeaning (s.span isBlank).2
  if Cursor.isOpen s.rest then
    return (.tagDirective (.ofList handle) (.ofList meaning), s)
  else .error .malformed

/-- The directive that starts here, with the line break behind it. -/
def readDirective (s : Cursor) : Except Error (Token × Cursor) := do
  let (name, s) := (s.drop 1).span isNameChar
  if name.isEmpty || !Cursor.isOpen s.rest then .error .malformed
  let (token, s) ←
    if name = ['Y', 'A', 'M', 'L'] then readVersion s
    else if name = ['T', 'A', 'G'] then readTagDirective s
    else .ok (.otherDirective, s.toBreak)
  let (_, s) ← s.skipBlanks true
  if s.atBreak then return (token, s.drop 1) else .error .malformed

end Schemata.Yaml
