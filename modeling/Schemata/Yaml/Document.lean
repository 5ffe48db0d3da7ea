import Schemata.Yaml.Reader
/-!
# YAML documents

The one document that a text holds: the directives in front of it, the marks around it, and what
may follow its end.
-/

namespace Schemata.Yaml

namespace Token

def isDirective : Token → Bool
  | .versionDirective | .tagDirective .. | .otherDirective => true
  | _ => false

/-- Whether a document ends in front of the token. -/
def endsDocument (t : Token) : Bool :=
  t.isDirective || t = .documentStart || t = .documentEnd || t = .streamEnd

end Token

/-- The handles that directives declare, and the tokens behind them. The version is given once
only, and so is each handle. -/
def takeDirectives : (version : Bool) → (handles : List (String × String)) → List Token →
    Except Error (List (String × String) × List Token)
  | version, handles, .versionDirective :: tokens =>
    if version then .error .malformed else takeDirectives true handles tokens
  | version, handles, .tagDirective handle meaning :: tokens =>
    if (handles.lookup handle).isSome then .error .malformed
    else takeDirectives version ((handle, meaning) :: handles) tokens
  | version, handles, .otherDirective :: tokens => takeDirectives version handles tokens
  | _, handles, tokens => .ok (handles, tokens)

/-- What a document starts with. -/
structure DocumentStart where
  reader : Reader
  /-- There are marks in front of the document, and it may be empty. -/
  marked : Bool

/-- The start of the next document, if there is one. Directives want marks behind them. -/
def startDocument? (needsMarks : Bool) (tokens : List Token) :
    Except Error (Option DocumentStart) := do
  let tokens := tokens.dropWhile (· = .documentEnd)
  if tokens.head? = some .streamEnd then return none
  let (handles, rest) ← takeDirectives false [] tokens
  let reader (tokens : List Token) : Reader :=
    { tokens, handles, anchors := #[], aliases := 0, size := 0, depth := 0 }
  if rest.head? = some .documentStart then return some ⟨reader (rest.drop 1), true⟩
  else if needsMarks || tokens.head?.any Token.isDirective then .error .malformed
  else return some ⟨reader rest, false⟩

/-- What a reader makes of a document; it is left alone if the document is empty. -/
def DocumentStart.read {α : Type} (empty : α) (read : Read α) (d : DocumentStart) :
    Except Error (α × Reader) :=
  if d.marked && d.reader.tokens.head?.any Token.endsDocument then .ok (empty, d.reader)
  else read.run d.reader

/-- Whether aliases are out of all proportion to the names. -/
def Reader.isFlooded (s : Reader) : Bool :=
  100 ≤ s.aliases && 10 * s.anchors.size < s.aliases

/-- Whether another document follows the end of one. What goes wrong before it is seen to is no
document. -/
def documentFollows (needsMarks : Bool) (tokens : List Token) : Bool :=
  match startDocument? needsMarks tokens with
  | .ok (some d) => (d.read () Reader.checkNode).isOk
  | _ => false

/-- The end of the only document of a text. -/
def checkEnd (tokens : List Token) : Except Error Unit := do
  let ended := tokens.head? = some .documentEnd
  let rest := if ended then tokens.drop 1 else tokens
  if tokens.isEmpty || (!ended && tokens.head?.any Token.isDirective) then .error .malformed
  else if documentFollows (!ended) rest then .error .severalDocuments
  else return

/-- The text as it is read: up to a character NUL, without a byte order mark in front, and with
one character for each line break. -/
def normalizeBreaks : List Char → List Char
  | [] => []
  | '\x00' :: _ => []
  | '\r' :: '\n' :: cs => '\n' :: normalizeBreaks cs
  | '\r' :: cs => '\n' :: normalizeBreaks cs
  | c :: cs => c :: normalizeBreaks cs

def readableText : List Char → List Char
  | '\ufeff' :: cs => normalizeBreaks cs
  | cs => normalizeBreaks cs

/-- The node of a text that holds at most one document, its mappings as they are written. -/
def readDocument (cs : List Char) : Except Error Node := do
  let tokens := tokenize (readableText cs)
  match ← startDocument? false tokens with
  | none => return .empty
  | some d =>
    -- Each node consumes a token, and at most three readers are at work for a token.
    let (node, s) ← d.read .empty (Reader.readNode (4 * tokens.length + 4) true false)
    checkEnd s.tokens
    if s.isFlooded then .error .tooManyAliases
    return node

/-- The node of a text that holds at most one document. -/
def ofText (text : String) : Except Error Node := readDocument text.toList

end Schemata.Yaml
