import Schemata.Command.Project
/-!
# Generation

A schema is written as a document of a target, to a file or as the output of the command.
-/

namespace Schemata.Generation

variable {m : Type → Type} [Monad m] [Files m]

/-- The prelude of a document, if one is asked for and the target has preludes. -/
def readBase (p : Project) (g : Generation) : Action m (Option String) := do
  match g.target, g.base <|> p.config.basePrelude with
  | .prisma, some path => return some (← (Project.readFile (p.resolve path)).adapt .file)
  | _, _ => return none

/-- The schema that is asked for, and its document. -/
def document (p : Project) (g : Generation) : Action m (Schema × String) := do
  let s ← p.readSchema g.input
  let base ← g.readBase p
  return (s, g.target.generate base s)

/-- The path that a document is written to. -/
def outputPath (p : Project) (g : Generation) : String :=
  p.resolve <| g.output.getD <|
    match g.target with
    | .prisma => p.config.outputs.prisma
    | .types => p.config.outputs.types

/-- Writes a document to a path, whose directory is made if need be. -/
def writeDocument (path text : String) : Action m Unit := do
  match Path.parent? path with
  | none => pure ()
  | some parent =>
    match ← Files.createDirectories parent with
    | .ok () => pure ()
    | .error cause => throw (.file (.unwritable path cause))
  (Project.writeFile path text).adapt .file

/-- What is told about a document that was written to a path. -/
def confirmation (colored : Bool) (target : Target) (s : Schema) (path : String) : String :=
  let mark := Text.Paint.green.apply colored "✓"
  s!"{mark} Generated {target.name} ({s.models.length} models, {s.enums.length} enums): {path}"

/-- Generates a document in a project. -/
def run (colored : Bool) (p : Project) (g : Generation) : Action m String := do
  let (s, text) ← g.document p
  if g.stdout then return text
  let path := g.outputPath p
  writeDocument path text
  return confirmation colored g.target s path

end Schemata.Generation
