import Schemata.Command.Basic
import Schemata.Config.YamlText
import Schemata.Normalize.Schema
/-!
# Projects

A project is a directory with a configuration. All paths that are not absolute are seen from it.
-/

namespace Schemata

/-- The directory of a project and its configuration. -/
structure Project where
  directory : String
  config : Config

namespace Project

variable {m : Type → Type} [Monad m] [Files m]

/-- The text of a file that has to be there. -/
def readFile (path : String) : ExceptT FileError m String := do
  if ← Files.pathExists path then
    match ← Files.readText path with
    | .ok text => return text
    | .error cause => throw (.unreadable path cause)
  else
    throw (.notFound path)

/-- Writes a file with a text. -/
def writeFile (path text : String) : ExceptT FileError m Unit := do
  match ← Files.writeText path text with
  | .ok () => return ()
  | .error cause => throw (.unwritable path cause)

/-- The configuration in a file; it has to be complete. -/
def readConfig (path : String) : ExceptT ConfigError m Config := do
  let text ← (readFile path).adapt .file
  match Config.ofYamlText text with
  | .error error => throw (.yaml error)
  | .ok config =>
    match config.validate with
    | .error gap => throw (.gap gap)
    | .ok () => return config

/-- The project of a setting. Only a configuration that was asked for has to be there. -/
def load (s : Setting) : Action m Project := do
  let path := Path.join s.directory (s.config.getD Program.current.configFile)
  if ← Files.pathExists path then
    return ⟨s.directory, ← (readConfig path).adapt .config⟩
  else if s.config.isSome then
    throw (.noConfig path)
  else
    return ⟨s.directory, .standard⟩

/-- A path as it is seen from the project. -/
def resolve (p : Project) (path : String) : String := Path.join p.directory path

/-- The graph of the snapshot at a path. -/
def readGraph (path : String) : Action m Graph := do
  let text ← (readFile path).adapt .file
  match Snapshot.read (.ofPath path) text with
  | .ok g => return g
  | .error error => throw (.snapshot path error)

/-- The schema of a snapshot, or of the usual one. -/
def readSchema (p : Project) (input : Option String) : Action m Schema := do
  let path := p.resolve (input.getD p.config.input)
  let g ← readGraph path
  match g.normalize p.config.unresolvedRelations with
  | .ok s => return s
  | .error error => throw (.normalize path error)

end Project
end Schemata
