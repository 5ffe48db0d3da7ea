import Schemata.CommandLine.Switch
/-!
# Reading command lines

A command line is read on two levels: the words up to the name of a command, and the words behind
it. A switch that is given is looked at when the next one is read or the level ends, so an unknown
word right behind a switch is told before an error in its value.
-/

namespace Schemata.CommandLine

/-- How a word looks. -/
inductive Word where
  /-- Two dashes: no switches follow. -/
  | separator
  /-- Two dashes and a name, and what stands behind an equals sign. -/
  | long (name : String) (value : Option String)
  /-- A dash and letters. -/
  | short (letters : List Char)
  | plain

def Word.ofChars : List Char → Word
  | ['-', '-'] => .separator
  | '-' :: '-' :: cs =>
    let name := cs.takeWhile (· ≠ '=')
    match cs.drop name.length with
    | _ :: value => .long (.ofList name) (some (.ofList value))
    | [] => .long (.ofList name) none
  | ['-'] => .plain
  | '-' :: cs => .short cs
  | _ => .plain

/-- What has been given on a level: the switches with their values, and the last switch with a
value, which may still be missing. -/
structure Level where
  given : List (Switch × String)
  pending : Option (Switch × Option String)

namespace Level

def empty : Level := ⟨[], none⟩

def has (l : Level) (s : Switch) : Bool := l.given.any fun g => g.1 = s

def value? (l : Level) (s : Switch) : Option String := l.given.lookup s

/-- Whether the next word is the value of a switch. -/
def isWaiting (l : Level) : Bool := l.pending.any fun p => p.2.isNone

/-- A value that a switch can have. -/
def checkValue (s : Switch) (value : String) : Except Refusal Unit :=
  match s with
  | .target =>
    match Target.ofName value with
    | .ok _ => .ok ()
    | .error _ => .error .invalidTarget
  | _ => if s.takesValue ∧ value.isEmpty then .error .missingValue else .ok ()

/-- Adds a switch, which may not be there yet. -/
def add (l : Level) (s : Switch) (value : String) : Except Refusal Level :=
  if l.has s then .error .conflict
  else do
    checkValue s value
    return { l with given := (s, value) :: l.given }

/-- Adds the pending switch. -/
def settle (l : Level) : Except Refusal Level :=
  match l.pending with
  | none => .ok l
  | some (_, none) => .error .missingValue
  | some (s, some value) => add { l with pending := none } s value

/-- Takes a switch without a value of its own word. -/
def take (l : Level) (command : Option String) (s : Switch) : Except Refusal Level := do
  let l ← l.settle
  match s with
  | .help => .error .helpWanted
  | .version => .error (.versionWanted command)
  | s => if s.takesValue then return { l with pending := some (s, none) } else l.add s ""

/-- Takes a switch with a value in its own word. -/
def takeWith (l : Level) (s : Switch) (value : String) : Except Refusal Level := do
  (← l.settle).add s value

/-- Takes the switches of a word of letters. Behind the letter of a switch with a value stands the
value. -/
def takeLetters (command : Option String) (switches : List Switch) :
    Level → List Char → Except Refusal Level
  | l, [] => .ok l
  | l, c :: cs =>
    match switches.find? fun s => s.letter? = some c with
    | none => .error .unknownArgument
    | some s =>
      if s.takesValue then
        match cs with
        | [] => l.take command s
        | '=' :: value => l.takeWith s (.ofList value)
        | value => l.takeWith s (.ofList value)
      else do takeLetters command switches (← l.take command s) cs

/-- Takes the switch of a name. -/
def takeNamed (command : Option String) (switches : List Switch) (l : Level) (name : String)
    (value : Option String) : Except Refusal Level :=
  match switches.find? fun s => s.name = name, value with
  | none, _ => .error .unknownArgument
  | some s, none => l.take command s
  | some s, some value => if s.takesValue then l.takeWith s value else .error .unwantedValue

end Level

/-- What a word that is out of place is taken for: a command where one could stand. -/
def stray (known : List String) (word : String) (separated : Bool) : Refusal :=
  if known.isEmpty ∨ separated ∧ word ∈ known then .unknownArgument else .unknownCommand

/-- Reads the words of a level, up to one that names a command and is not the value of a switch:
what was given, and the command with the words behind it. -/
def readLevel (command : Option String) (known : List String) (switches : List Switch) :
    Level → List String → Except Refusal (Level × Option (String × List String))
  | l, [] => .ok (l, none)
  | l, word :: words =>
    -- A word that names a command is still a value behind a switch that waits for one.
    if !l.isWaiting ∧ word ∈ known then .ok (l, some (word, words))
    else
      match Word.ofChars word.toList with
      | .separator =>
        match words with
        | [] => .ok (l, none)
        | word :: _ => .error (stray known word true)
      | .long name value => do
        readLevel command known switches (← l.takeNamed command switches name value) words
      | .short letters => do
        readLevel command known switches (← l.takeLetters command switches letters) words
      | .plain =>
        match l.pending with
        | some (s, none) =>
          readLevel command known switches { l with pending := some (s, some word) } words
        | _ => .error (stray known word false)

/-- A command line that can be carried out. -/
structure Invocation where
  config : Option String
  verbose : Bool
  noColor : Bool
  command : Command
deriving DecidableEq

/-- The command of a name with what it has been given. -/
def toCommand (name : String) (l : Level) : Except Refusal Command :=
  if name = "init" then .ok (.init (l.has .force))
  else if name = "summary" then .ok (.summary (l.value? .input) (l.has .json))
  else if name = "validate" then .ok (.validate (l.value? .input))
  else if l.has .output ∧ l.has .stdout then .error .conflict
  else
    match (l.value? .target).map Target.ofName with
    | some (.ok target) =>
      .ok (.generate {
        target
        input := l.value? .input
        base := l.value? .base
        output := l.value? .output
        stdout := l.has .stdout })
    | _ => .error .missingTarget

/-- The refusal of a command line that asks for help on the command that some words name. -/
def helpOn : List String → Refusal
  | [] => .helpWanted
  | [word] => if word ∈ "help" :: commands then .helpWanted else .unknownCommand
  | _ => .unknownCommand

/-- Reads the words of a command line. -/
def read (words : List String) : Except Refusal Invocation := do
  let (outer, rest) ← readLevel none ("help" :: commands) Switch.everywhere .empty words
  match rest with
  | none =>
    let outer ← outer.settle
    .error (if outer.given.isEmpty then .noArguments else .noCommand)
  | some (name, words) =>
    if name = "help" then .error (helpOn words)
    else
      let switches := Switch.ofCommand name ++ Switch.everywhere
      let (inner, _) ← readLevel (some name) [] switches .empty words
      let inner ← inner.settle
      let command ← toCommand name inner
      -- The outer level is looked at last, so errors behind the name of the command come first.
      let outer ← outer.settle
      return {
        config := inner.value? .config <|> outer.value? .config
        verbose := inner.has .verbose || outer.has .verbose
        noColor := inner.has .noColor || outer.has .noColor
        command }

end Schemata.CommandLine
