import Schemata.Text.Blank
import Schemata.Yaml.Scalar
/-!
# Writing YAML scalars

A text is written as it is where that is taken for a text, and in quotes where it would be taken
for something else or for a piece of YAML. Long texts are folded, and texts of several lines are
written line by line.
-/

namespace Schemata.Yaml

/-- The characters in front of which a text would be no plain scalar. -/
def needsQuoteInFront (c : Char) : Bool :=
  c ∈ ['-', '?', ':', '[', ']', '\x7b', '\x7d', '#', '&', '*', '!', '|', '>', '\'', '"', '%', '@',
    '`', ' ', '\t', '\n', '\x0c', '\r']

def isControl (c : Char) : Bool := c.toNat < 0x20 || (0x7f ≤ c.toNat && c.toNat < 0xa0)

/-- The characters that a plain scalar is not written with. -/
def needsQuote (c : Char) : Bool :=
  c ∈ [',', '[', ']', '\x7b', '\x7d', '#'] || isControl c

/-- Whether a colon with a space behind it stands in a text. -/
def hasColonSpace : List Char → Bool
  | ':' :: ' ' :: _ => true
  | _ :: cs => hasColonSpace cs
  | [] => false

/-- Whether a text without the blanks at its end ends in a colon. -/
def endsInColon (cs : List Char) : Bool := (Text.dropTrailing Text.isBlank cs).getLast? = some ':'

/-- Whether a text consists of digits of a base and of `_`, and is not empty. -/
def isDigits (base : Nat) (cs : List Char) : Bool :=
  !cs.isEmpty && cs.all fun c => c = '_' || (Scalar.digit? base c).isSome

/-- The digits at the front of a text, between which `_` may stand. -/
def digitRun (cs : List Char) : List Char :=
  if cs.head?.any Char.isDigit then cs.takeWhile fun c => c.isDigit || c = '_' else []

/-- Whether a text looks like an exponent, or is empty. -/
def looksLikeExponent : List Char → Bool
  | [] => true
  | e :: cs =>
    let digits := (Scalar.splitSign cs).2
    (e = 'e' || e = 'E') && !digits.isEmpty && digitRun digits = digits

/-- Whether a text looks like a decimal without a sign. -/
def looksLikeDecimal (cs : List Char) : Bool :=
  let whole := digitRun cs
  let rest := cs.drop whole.length
  match rest with
  | '.' :: rest =>
    let fraction :=
      if whole.isEmpty then digitRun rest else rest.takeWhile fun c => c.isDigit || c = '_'
    !(whole.isEmpty && fraction.isEmpty) && looksLikeExponent (rest.drop fraction.length)
  | rest => !whole.isEmpty && looksLikeExponent rest

/-- Whether a text looks like a number, with or without a sign. -/
def looksNumeric (cs : List Char) : Bool :=
  match (Scalar.splitSign cs).2 with
  | '0' :: 'x' :: digits => isDigits 16 digits
  | '0' :: 'o' :: digits => isDigits 8 digits
  | '0' :: 'b' :: digits => isDigits 2 digits
  | cs => looksLikeDecimal cs

/-- Whether a text names a number that is no finite one. -/
def looksUnbounded (cs : List Char) : Bool :=
  (String.ofList cs).toLower ∈ [".inf", ".nan", "inf", "nan", "+.inf", "+.nan", "+inf"]

/-- Whether a text is taken for a text without quotes. -/
def isPlainSafe (cs : List Char) : Bool :=
  let text := String.ofList cs
  !(Node.isNullText text || (Scalar.bool? text).isSome || looksUnbounded cs || looksNumeric cs ||
    cs.head?.any needsQuoteInFront || hasColonSpace cs || endsInColon cs || cs.any needsQuote)

/-- A character between double quotes. -/
def escapeQuoted (c : Char) : List Char :=
  match c with
  | '\\' => ['\\', '\\']
  | '"' => ['\\', '"']
  | '\x00' => ['\\', '0']
  | '\x07' => ['\\', 'a']
  | '\x08' => ['\\', 'b']
  | '\t' => ['\\', 't']
  | '\n' => ['\\', 'n']
  | '\x0b' => ['\\', 'v']
  | '\x0c' => ['\\', 'f']
  | '\r' => ['\\', 'r']
  | '\x1b' => ['\\', 'e']
  | '\u0085' => ['\\', 'N']
  | '\u2028' => ['\\', 'L']
  | '\u2029' => ['\\', 'P']
  | '\ufeff' => ['\\', 'u', 'F', 'E', 'F', 'F']
  | c =>
    if isControl c then
      let digit (n : Nat) : Char := (Nat.digitChar n).toUpper
      ['\\', 'x', digit (c.toNat / 16), digit (c.toNat % 16)]
    else [c]

/-- The texts that are written in single quotes: a mark on its own. -/
def loneMarks : List (List Char) := [['.'], ['#'], ['-']]

/-- A text in quotes. -/
def quoteScalar (cs : List Char) : List Char :=
  '"' :: (cs.flatMap escapeQuoted ++ ['"'])

/-- How many characters a line may have before a text is folded. -/
def lineWidth : Nat := 80

/-- The lines of a folded text, of which `column` characters have been counted since the last line
broke. The line so far is a word, with `held` and a space before it if there is one. A line breaks
at its last space once it is too long; what stands behind that has then been counted. -/
def foldText (column : Nat) (held : Option (List Char)) (word : List Char) :
    List Char → List (List Char)
  | [] => [line held word]
  | c :: cs =>
    let next := if c = ' ' then some (line held word) else held
    let word := if c = ' ' then [] else word ++ [c]
    match next with
    | some ended =>
      if lineWidth ≤ column then ended :: foldText 0 none word cs
      else foldText (column + 1) next word cs
    | none => foldText (column + 1) none word cs
where
  /-- The characters of a line so far. -/
  line : Option (List Char) → List Char → List Char
    | some held, word => held ++ ' ' :: word
    | none, word => word

/-- The lines of a text between its line breaks. -/
def splitLines : List Char → List (List Char)
  | [] => [[]]
  | c :: cs =>
    if c = '\n' then [] :: splitLines cs
    else
      match splitLines cs with
      | [] => [[c]]
      | line :: lines => (c :: line) :: lines

/-- A block scalar of a header and of lines with some indentation. -/
def writeBlock (indent : Nat) (header : List Char) (lines : List (List Char)) : List Char :=
  header ++ lines.flatMap fun line => '\n' :: (List.replicate indent ' ' ++ line)

/-- The header of a block that ends in some number of line breaks. -/
def literalHeader (breaks : Nat) : List Char :=
  if breaks = 0 then ['|', '-'] else if breaks = 1 then ['|'] else ['|', '+']

/-- A text of several lines, with a blank line for each line break at its end but the first. -/
def writeLines (indent : Nat) (cs : List Char) : List Char :=
  let body := Text.dropTrailing (· = '\n') cs
  let breaks := cs.length - body.length
  if isPlainSafe (body.map fun c => if c = '\n' then ' ' else c) then
    writeBlock indent (literalHeader breaks)
      (splitLines body ++ List.replicate (breaks - 1) [])
  else quoteScalar cs

/-- A text as a scalar; the lines of a block have the given indentation. -/
def writeScalar (indent : Nat) (cs : List Char) : List Char :=
  if '\n' ∈ cs then writeLines indent cs
  else if cs ∈ loneMarks then '\'' :: (cs ++ ['\''])
  else if !isPlainSafe cs then quoteScalar cs
  else if lineWidth < cs.length then writeBlock indent ['>', '-'] (foldText 0 none [] cs)
  else cs

end Schemata.Yaml
