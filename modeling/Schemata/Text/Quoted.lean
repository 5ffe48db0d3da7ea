/-!
# Quoted literals

A text in double quotes, with a backslash before every backslash and quote in it, as schema
documents write literals. `scanBody_escape` says that a scanner with backslash escapes reads
such a literal back and stops exactly at its closing quote, whatever follows.
-/

namespace Schemata.Text

/-- The characters of a literal between its quotes. -/
def escape : List Char → List Char
  | [] => []
  | c :: cs => if c = '\\' ∨ c = '"' then '\\' :: c :: escape cs else c :: escape cs

/-- The text as a literal: in double quotes, with `\` and `"` escaped. -/
def quote (s : String) : String :=
  .ofList ('"' :: (escape s.toList ++ ['"']))

/-- The literals of the texts, separated by commas. -/
def quotedList (texts : List String) : String :=
  ", ".intercalate (texts.map quote)

/-- Reads a literal behind its opening quote: the text, and what follows the closing quote. -/
def scanBody : List Char → Option (List Char × List Char)
  | [] => none
  | '"' :: rest => some ([], rest)
  | '\\' :: c :: rest => (scanBody rest).map fun (s, t) => (c :: s, t)
  | '\\' :: [] => none
  | c :: rest => (scanBody rest).map fun (s, t) => (c :: s, t)

/-- Reads a literal from the front of a text. -/
def scanLiteral : List Char → Option (List Char × List Char)
  | '"' :: rest => scanBody rest
  | _ => none

theorem scanBody_escape (s rest : List Char) :
    scanBody (escape s ++ '"' :: rest) = some (s, rest) := by
  induction s with
  | nil => simp [escape, scanBody]
  | cons c s ih =>
    by_cases hb : c = '\\'
    · subst hb; simp [escape, scanBody, ih]
    · by_cases hq : c = '"'
      · subst hq; simp [escape, scanBody, ih]
      · simp [escape, scanBody, hb, hq, ih]

end Schemata.Text
