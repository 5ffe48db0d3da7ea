import Schemata.Config.Basic
import Schemata.File.System
import Schemata.Snapshot
import Schemata.Target
import Schemata.Text.Printable
/-!
# Commands

What can be asked of the program, why it may fail to do it, and how a terminal is told to show a
text in a colour or in bold.
-/

namespace Schemata

/-- What generation is asked for. Paths that are left out are those of the configuration. -/
structure Generation where
  target : Target
  input : Option String
  base : Option String
  output : Option String
  /-- The document is the output of the command, and no file is written. -/
  stdout : Bool
deriving DecidableEq

inductive Command where
  | init (force : Bool)
  | summary (input : Option String) (json : Bool)
  | generate (generation : Generation)
  | validate (input : Option String)
deriving DecidableEq

/-- What went wrong with a file. -/
inductive FileError where
  | notFound (path : String)
  | unreadable (path : String) (cause : FileCause)
  | unwritable (path : String) (cause : FileCause)
deriving DecidableEq

namespace FileError

def message : FileError → String
  | .notFound path => s!"File not found: {path}"
  | .unreadable path cause => s!"Failed to read file: {path} (cause: {cause.message})"
  | .unwritable path cause => s!"Failed to write file: {path} (cause: {cause.message})"

def isNotFound : FileError → Bool
  | .notFound _ => true
  | _ => false

def isUnreadable : FileError → Bool
  | .unreadable .. => true
  | _ => false

def isUnwritable : FileError → Bool
  | .unwritable .. => true
  | _ => false

end FileError

/-- What is wrong with the configuration of a project. -/
inductive ConfigError where
  | file (error : FileError)
  | yaml (error : Yaml.Error)
  | gap (gap : Config.Gap)

namespace ConfigError

def message : ConfigError → String
  | .file error => error.message
  | .yaml _ => "Failed to parse config file"
  | .gap missing => missing.message

end ConfigError

/-- Why a command fails. -/
inductive Failure where
  | alreadyInitialized
  /-- The configuration that was asked for is not there. -/
  | noConfig (path : String)
  | config (error : ConfigError)
  | file (error : FileError)
  | directory (path : String) (cause : FileCause)
  | snapshot (path : String) (error : Snapshot.Error)
  | normalize (path : String) (error : NormalizeError)
  /-- The schema is not valid, as a report says. -/
  | invalid (report : String)

namespace Failure

def message : Failure → String
  | .alreadyInitialized =>
    "Project is already initialized. Use --force option to force re-initialization."
  | .noConfig path => s!"Config file not found: {Text.shown path}"
  | .config error => s!"Failed to read config file: {error.message}"
  | .file error => error.message
  | .directory path cause => s!"Failed to create directory: {Text.shown path}: {cause.message}"
  | .snapshot path error => s!"Failed to parse schema graph: {Text.shown path}: {error.message}"
  | .normalize path error =>
    s!"Failed to normalize schema graph: {Text.shown path}: {error.message}"
  | .invalid report => report

end Failure

namespace Text

/-- A rendition of a text by a terminal. -/
inductive Paint where
  | bold
  | red
  | green
  | yellow

namespace Paint

/-- The number of the rendition. -/
def code : Paint → String
  | .bold => "1"
  | .red => "31"
  | .green => "32"
  | .yellow => "33"

/-- The text in a rendition, if colours are wanted. -/
def apply (paint : Paint) (colored : Bool) (text : String) : String :=
  if colored then s!"\x1b[{paint.code}m{text}\x1b[0m" else text

end Paint

end Text

/-- Where a command runs, and whether it may colour its output. -/
structure Setting where
  directory : String
  /-- The configuration that is asked for, in place of the usual one. -/
  config : Option String
  colored : Bool

/-- The effects of a command, which may fail. -/
abbrev Action (m : Type → Type) (α : Type) := ExceptT Failure m α

end Schemata
