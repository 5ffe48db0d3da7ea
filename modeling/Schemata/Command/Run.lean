import Schemata.Command.Generate
import Schemata.Command.Init
import Schemata.Command.Validate
import Schemata.Schema.Checksum
/-!
# Running commands

What each command does, and the text that it puts out. A schema is shown as its summary with its
checksum, or as JSON.
-/

namespace Schemata.Schema

/-- The summary and the checksum. -/
def overview (colored : Bool) (s : Schema) : String :=
  let label := Text.Paint.bold.apply colored "Checksum:"
  s!"{s.summary}{label} {s.checksum}"

/-- What the summary command shows of a schema. -/
def display (colored json : Bool) (s : Schema) : String :=
  if json then s.toJson.indented else s.overview colored

end Schemata.Schema

namespace Schemata.Command

variable {m : Type → Type} [Monad m] [Files m]

/-- The report on a schema, which is a failure if the schema is not valid. -/
def reportOn (colored : Bool) (s : Schema) : Action m String :=
  let report := s.validate
  let text := report.format colored s
  if report.isValid then return text else throw (.invalid text)

/-- Runs a command in a setting. -/
def run (s : Setting) : Command → Action m String
  | .init force => Init.run s.directory force
  | .summary input json => do
    let project ← Project.load s
    return (← project.readSchema input).display s.colored json
  | .generate generation => do generation.run s.colored (← Project.load s)
  | .validate input => do
    let project ← Project.load s
    reportOn s.colored (← project.readSchema input)

end Schemata.Command
