import Schemata.Yaml.Block
import Schemata.Yaml.Directive
import Schemata.Yaml.Plain
/-!
# Cutting a YAML text into tokens

Where a block collection begins, and that a node is a key, shows only at a colon further on. So a
node that may be a key is kept in mind, and once the colon is met, the tokens that say what it is
are put in front of it. A token is settled when nothing can be put in front of it any more; of a
text that goes wrong somewhere, the tokens are those that were settled before.
-/

namespace Schemata.Yaml

/-- A level of indentation. -/
structure Margin where
  column : Int
  /-- A block collection has its parts at the column. Otherwise it is only how far the node that
  follows is indented at least. -/
  collection : Bool

/-- A node that is a key if a colon follows. -/
structure KeyMark where
  /-- How many tokens are in front of the node. -/
  number : Nat
  place : Place
  /-- Nothing but a key can stand there. -/
  required : Bool

/-- A text that has been cut into tokens up to some place. -/
structure Lexer where
  /-- How long the whole text is. -/
  length : Nat
  cursor : Cursor
  /-- How many tokens there were. -/
  count : Nat
  /-- How many of them are settled. -/
  settled : Nat
  /-- The other ones, the last one first. -/
  pending : List Token
  /-- The levels of indentation, innermost first. -/
  margins : List Margin
  /-- The possible key in the innermost flow collection, or in the block outside of all. -/
  key : Option KeyMark
  /-- The possible keys around each flow collection, innermost first. -/
  outerKeys : List (Option KeyMark)
  /-- A node that starts here may be a key. -/
  keyAllowed : Bool
  /-- The place behind which a colon needs no gap, as an offset. -/
  adjacent : Nat
  /-- Pairs with a colon belong to a mapping that has begun. -/
  inMapping : Bool
  /-- For each flow sequence, innermost first, how many flow collections were open where a pair
  without braces began in it. -/
  pairs : List (Option Nat)
  /-- The line on which a comment cut off a plain scalar that has just been read. -/
  cutOff : Option Nat

namespace Lexer

def start (cs : List Char) : Lexer :=
  { length := cs.length, cursor := ⟨cs, .start⟩, count := 0, settled := 0, pending := [],
    margins := [], key := none, outerKeys := [], keyAllowed := true, adjacent := 0,
    inMapping := false, pairs := [], cutOff := none }

/-- How many flow collections are open. -/
def level (s : Lexer) : Nat := s.outerKeys.length

def inFlow (s : Lexer) : Bool := !s.outerKeys.isEmpty

/-- The column of the innermost margin. -/
def indentOf : List Margin → Int
  | [] => -1
  | m :: _ => m.column

def indent (s : Lexer) : Int := indentOf s.margins

def push (token : Token) (s : Lexer) : Lexer :=
  { s with count := s.count + 1, pending := token :: s.pending }

/-- Puts a token in front of the tokens from some number on. -/
def insert (number : Nat) (token : Token) (s : Lexer) : Lexer :=
  let (behind, before) := s.pending.splitAt (s.count - number)
  { s with count := s.count + 1, pending := behind ++ token :: before }

/-- Keeps in mind that the node that starts here may be a key. -/
def saveKey (s : Lexer) : Lexer :=
  if s.keyAllowed then
    let atMargin := s.margins.head?.any fun m => m.collection && m.column = (s.cursor.column : Int)
    { s with key := some ⟨s.count, s.cursor.place, !s.inFlow && atMargin⟩ }
  else s

/-- What was a possible key is none. -/
def dropKey (s : Lexer) : Except Error Lexer :=
  if s.key.any (·.required) then .error .malformed else .ok { s with key := none }

/-- Outside of flow collections a key is short and its colon stands on its line. -/
def dropStaleKey (s : Lexer) : Except Error Lexer :=
  let isStale (k : KeyMark) : Bool :=
    k.place.line < s.cursor.line || k.place.offset + 1024 < s.cursor.place.offset
  if !s.inFlow && s.key.any isStale then s.dropKey else .ok s

/-- Ends the block collections whose parts start right of a column. -/
def endBlocks (column : Int) (s : Lexer) : Lexer :=
  if s.inFlow then s
  else
    let ended := s.margins.takeWhile fun m => column < m.column
    let ends := ended.countP (·.collection)
    { s with
      count := s.count + ends
      pending := List.replicate ends .blockEnd ++ s.pending
      margins := s.margins.drop ended.length }

/-- Begins a block collection at a column, unless it has begun before. -/
def beginBlock (column number : Nat) (token : Token) (s : Lexer) : Lexer :=
  if s.inFlow then s
  else
    let margins :=
      match s.margins with
      | [] => []
      | m :: ms => if !m.collection && m.column ≤ column then ms else m :: ms
    if indentOf margins < column then
      { s.insert number token with margins := ⟨column, true⟩ :: margins }
    else { s with margins }

/-- The node that follows is indented further than the block collection it is in. -/
def addMargin (s : Lexer) : Lexer :=
  match s.margins with
  | [] => s
  | m :: ms =>
    if !s.inFlow && m.collection then { s with margins := ⟨m.column + 1, false⟩ :: m :: ms } else s

/-- Only block collections indent the node that follows. -/
def dropMargins (s : Lexer) : Lexer := { s with margins := s.margins.dropWhile (!·.collection) }

/-- Ends the pair without braces that began in the innermost flow sequence. -/
def endPair (s : Lexer) : Lexer :=
  match s.pairs with
  | some level :: pairs =>
    if level = s.level then
      { s.push .flowMappingEnd with pairs := none :: pairs, inMapping := false }
    else s
  | _ => s

/-- Passes white space and comments. In a block collection a key may start on a new line. -/
def skip (s : Lexer) : Except Error Lexer := do
  let cursor ← s.cursor.skip s.indent
  return { s with cursor, keyAllowed := s.keyAllowed || (!s.inFlow && s.cursor.line < cursor.line) }

/-- Passes `n` characters and the rest of the gap behind them. -/
def pass (n : Nat) (s : Lexer) : Except Error Lexer := do
  let (_, cursor) ← (s.cursor.drop n).skipBlanks true
  return { s with cursor }

def readFlowStart (mapping : Bool) (s : Lexer) : Except Error Lexer := do
  let s := s.saveKey.addMargin
  if 255 ≤ s.level then .error .malformed
  let s ← s.pass 1
  return { s.push (if mapping then .flowMappingStart else .flowSequenceStart) with
    key := none
    outerKeys := s.key :: s.outerKeys
    keyAllowed := true
    inMapping := s.inMapping || mapping
    pairs := if mapping then s.pairs else none :: s.pairs }

def readFlowEnd (mapping : Bool) (s : Lexer) : Except Error Lexer := do
  let s ← s.dropKey
  let s := if mapping then s else s.endPair
  match s.outerKeys with
  | [] => .error .malformed
  | key :: outerKeys =>
    let s ← s.pass 1
    return { s.push (if mapping then .flowMappingEnd else .flowSequenceEnd) with
      key
      outerKeys
      keyAllowed := false
      adjacent := if outerKeys.isEmpty then s.adjacent else s.cursor.place.offset
      pairs := if mapping then s.pairs else s.pairs.drop 1 }

def readFlowEntry (s : Lexer) : Except Error Lexer := do
  let s ← s.dropKey
  let s ← s.endPair.pass 1
  return { s.push .flowEntry with keyAllowed := true }

/-- The dash of an item. Tabs may not indent an item that begins on its line. -/
def readBlockEntry (s : Lexer) : Except Error Lexer := do
  if s.inFlow || !s.keyAllowed then .error .malformed
  let s := s.beginBlock s.cursor.column s.count .blockSequenceStart
  let (gap, cursor) ← (s.cursor.drop 1).skipBlanks true
  if '\t' ∈ gap && cursor.head? = some '-' && cursor.isIndicator then .error .malformed
  let s := { s with cursor }
  let s := if cursor.head?.any fun c => c = '\n' || isFlowIndicator c then s.addMargin else s
  let s ← s.dropKey
  return { s.push .blockEntry with keyAllowed := true }

/-- The question mark of a key. -/
def readKey (s : Lexer) : Except Error Lexer := do
  if !s.inFlow && !s.keyAllowed then .error .malformed
  let s := s.beginBlock s.cursor.column s.count .blockMappingStart
  let s ← s.dropKey
  let before := s.cursor.drop 1
  let cursor := Cursor.skipSpaces false before.place before.rest
  let isGapped := before.head?.any fun c => c = ' ' || c = '\n'
  if !isGapped || cursor.head? = some '\t' then .error .malformed
  return { s.push .key with
    cursor
    keyAllowed := !s.inFlow
    inMapping := s.inMapping || s.inFlow }

/-- The cursor behind a colon. Tabs alone may not separate it from a word or a dash. -/
def passColon (s : Cursor) : Except Error Cursor := do
  let s := s.drop 1
  if s.head? ≠ some '\t' then return s
  let (gap, s) ← s.skipBlanks true
  if ' ' ∉ gap && s.head?.any isNameChar then .error .malformed
  return s

/-- The colon of a value. In a flow sequence a pair needs no braces. -/
def readValue (s : Lexer) : Except Error Lexer := do
  let column := s.cursor.column
  let line := s.cursor.line
  let isPair := !s.pairs.isEmpty && !s.inMapping
  let cursor ← passColon s.cursor
  let s := { s with
    cursor
    pairs := if isPair then some s.level :: s.pairs.drop 1 else s.pairs }
  match s.key with
  | some key =>
    if isPair && key.place.line < line then .error .malformed
    let s := s.insert key.number .key
    let s := if isPair then s.insert key.number .flowMappingStart else s
    let s := (s.beginBlock key.place.column key.number .blockMappingStart).addMargin
    return { s.push .value with key := none, keyAllowed := false }
  | none =>
    if !s.inFlow && !s.keyAllowed then .error .malformed
    let s := if isPair then s.push .flowMappingStart else s
    let s := (s.beginBlock column s.count .blockMappingStart).addMargin
    return { s.push .value with keyAllowed := !s.inFlow }

def readAnchorToken (s : Lexer) : Except Error Lexer := do
  let (name, cursor) ← readAnchor s.cursor
  return { s.saveKey.push (.anchor name) with cursor, keyAllowed := false }

def readAliasToken (s : Lexer) : Except Error Lexer := do
  let (name, cursor) ← readAnchor s.cursor
  return { s.saveKey.push (.reference name) with cursor, keyAllowed := false }

def readTagToken (s : Lexer) : Except Error Lexer := do
  let (handle, suffix, cursor) ← readTag s.inFlow s.cursor
  return { s.saveKey.push (.tag handle suffix) with cursor, keyAllowed := false }

def readBlockToken (s : Lexer) : Except Error Lexer := do
  let s := s.saveKey.dropMargins
  let (text, cursor) ← readBlock s.length s.indent s.cursor
  return { s.push (.scalar .block text) with cursor, keyAllowed := true }

/-- A colon may follow the quote directly. -/
def readQuotedToken (quote : Char) (s : Lexer) : Except Error Lexer := do
  let s := s.saveKey
  let (text, cursor) ← readQuoted s.length quote s.inFlow s.indent s.cursor
  let s ← skip { s with cursor, keyAllowed := false }
  return { s.push (.scalar .quoted text) with adjacent := s.cursor.place.offset }

def readPlainToken (s : Lexer) : Except Error Lexer := do
  let s := s.saveKey.dropMargins
  let (text, cursor) ← readPlain (s.length + 1) s.inFlow (s.indent + 1) s.cursor
  let isCutOff := !s.inFlow && !cursor.fresh && cursor.head? = some '#'
  return { s.push (.scalar .plain text) with
    cursor
    keyAllowed := cursor.fresh
    cutOff := if isCutOff then some cursor.line else none }

/-- The node or the mark that starts with `c` here and goes on with `cs`. -/
def readPart (c : Char) (cs : List Char) (s : Lexer) : Except Error Lexer :=
  let alone := Cursor.isOpen cs
  match c with
  | '[' => s.readFlowStart false
  | '\x7b' => s.readFlowStart true
  | ']' => s.readFlowEnd false
  | '\x7d' => s.readFlowEnd true
  | ',' => s.readFlowEntry
  | '-' => if alone then s.readBlockEntry else s.readPlainToken
  | '?' => if alone then s.readKey else s.readPlainToken
  | ':' =>
    let isAdjacent := s.cursor.place.offset = s.adjacent
    if alone then s.readValue
    else if s.inFlow && (isAdjacent || cs.head?.any isFlowIndicator) then
      if !isAdjacent && cs.head?.any (fun c => c = '[' || c = '\x7b') then .error .malformed
      else s.readValue
    else s.readPlainToken
  | '*' => s.readAliasToken
  | '&' => s.readAnchorToken
  | '!' => s.readTagToken
  | '|' | '>' => if s.inFlow then s.readPlainToken else s.readBlockToken
  | '\'' | '"' => s.readQuotedToken c
  | '%' | '@' | '`' => .error .malformed
  | _ => s.readPlainToken

/-- The marks that begin or end a document. -/
def readMarks (token : Token) (s : Lexer) : Except Error Lexer := do
  let s ← (s.endBlocks (-1)).dropKey
  return { s.push token with cursor := s.cursor.drop 3, keyAllowed := false }

/-- The marks at the end of a document, with nothing but a comment behind them. -/
def readEndMarks (s : Lexer) : Except Error Lexer := do
  let s ← (← s.readMarks .documentEnd).pass 0
  if s.cursor.atBreak then return s else .error .malformed

def readDirectiveToken (s : Lexer) : Except Error Lexer := do
  let s ← (s.endBlocks (-1)).dropKey
  let (token, cursor) ← readDirective s.cursor
  return { s.push token with cursor, keyAllowed := false }

/-- The end of the text, at which all flow collections have ended. -/
def readEnd (s : Lexer) : Except Error Lexer := do
  if s.inFlow then .error .malformed
  let s ← s.dropKey
  return (s.endBlocks (-1)).push .streamEnd

/-- Whether the plain scalar that a comment has cut off would go on here. -/
def goesOn (s : Lexer) (c : Char) (cs : List Char) : Bool :=
  s.cutOff.any (· + 1 = s.cursor.line) && !s.inFlow && s.indent < s.cursor.column &&
    isPlainChar false c cs

/-- What stands next. A flow collection may end, or its parts may, left of the column that its
parts have to keep. -/
def readNext (s : Lexer) : Except Error Lexer :=
  match s.cursor.rest with
  | [] => s.readEnd
  | c :: cs =>
    if s.goesOn c cs then .error .malformed
    else
      let s := { s with cutOff := none }
      if s.cursor.column = 0 && c = '%' then s.readDirectiveToken
      else if s.cursor.atMarks '-' then s.readMarks .documentStart
      else if s.cursor.atMarks '.' then s.readEndMarks
      else if (s.cursor.column : Int) < s.indent &&
          !(s.inFlow && (c = ']' || c = '\x7d' || c = ',')) then .error .malformed
      else s.readPart c cs

/-- Settles the tokens in front of the first possible key, and gives those that were not settled
before. -/
def settle (s : Lexer) : Except Error (List Token × Lexer) := do
  let s ← if s.pending.isEmpty then .ok s else s.dropStaleKey
  let numbers := (s.key :: s.outerKeys).filterMap fun key => key.map (·.number)
  let settled := numbers.foldl Nat.min s.count
  if settled = s.settled then return ([], s)
  let (pending, tokens) := s.pending.splitAt (s.count - settled)
  return (tokens.reverse, { s with settled, pending })

/-- Cuts off what stands next, and gives the tokens that are settled then. -/
def step (s : Lexer) : Except Error (List Token × Lexer) := do
  let s ← (← s.skip).dropStaleKey
  (← (s.endBlocks s.cursor.column).readNext).settle

/-- The tokens of all that follows. -/
def run : (fuel : Nat) → Lexer → List Token
  | 0, _ => []
  | fuel + 1, s =>
    match s.step with
    | .error _ => []
    | .ok (tokens, s) =>
      if tokens.getLast? = some .streamEnd then tokens else tokens ++ run fuel s

end Lexer

/-- The tokens of a text; the last one is its end, unless the text goes wrong before. Each step but
the last one passes a character. -/
def tokenize (cs : List Char) : List Token := Lexer.run (cs.length + 1) (.start cs)

end Schemata.Yaml
