import Schemata.Command.Basic
/-!
# Switches

The switches of the command line by their names, and why a command line is refused.
-/

namespace Schemata.CommandLine

/-- A switch. Some take a value, which is a path or a target. -/
inductive Switch where
  | config
  | verbose
  | noColor
  | help
  | version
  | force
  | input
  | json
  | target
  | base
  | output
  | stdout
deriving DecidableEq

namespace Switch

/-- The name behind two dashes. -/
def name : Switch → String
  | .config => "config"
  | .verbose => "verbose"
  | .noColor => "no-color"
  | .help => "help"
  | .version => "version"
  | .force => "force"
  | .input => "input"
  | .json => "json"
  | .target => "target"
  | .base => "base"
  | .output => "output"
  | .stdout => "stdout"

/-- The letter behind one dash. -/
def letter? : Switch → Option Char
  | .config => some 'c'
  | .verbose => some 'v'
  | .help => some 'h'
  | .version => some 'V'
  | .force => some 'f'
  | .input => some 'i'
  | .target => some 't'
  | .base => some 'b'
  | .output => some 'o'
  | .noColor => none
  | .json => none
  | .stdout => none

def takesValue : Switch → Bool
  | .config => true
  | .input => true
  | .target => true
  | .base => true
  | .output => true
  | _ => false

/-- The switches that may stand before and behind the name of a command. -/
def everywhere : List Switch := [.config, .verbose, .noColor, .help, .version]

/-- The switches of a command of its own. -/
def ofCommand (command : String) : List Switch :=
  if command = "init" then [.force]
  else if command = "summary" then [.input, .json]
  else if command = "generate" then [.target, .input, .base, .output, .stdout]
  else if command = "validate" then [.input]
  else []

end Switch

/-- The names of the commands. -/
def commands : List String := ["init", "summary", "generate", "validate"]

/-- Why a command line is not carried out. -/
inductive Refusal where
  | noArguments
  | noCommand
  | unknownCommand
  | unknownArgument
  /-- A switch that takes a value has none, or has an empty one for a path. -/
  | missingValue
  /-- A switch that takes no value has one. -/
  | unwantedValue
  | invalidTarget
  /-- Switches that exclude each other, or one that is given twice. -/
  | conflict
  | missingTarget
  | helpWanted
  /-- The version is asked for, of the program or of a command of it. -/
  | versionWanted (command : Option String)
deriving DecidableEq

namespace Refusal

/-- What is asked for is no failure. -/
def exitCode : Refusal → Nat
  | .helpWanted => 0
  | .versionWanted _ => 0
  | _ => 2

/-- The line that tells the version. -/
def versionText (command : Option String) : String :=
  let p := Program.current
  match command with
  | none => s!"{p.name} {p.version}\n"
  | some command => s!"{p.name}-{command} {p.version}\n"

end Refusal
end Schemata.CommandLine
