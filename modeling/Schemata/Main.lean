import Schemata.Command.Run
import Schemata.CommandLine.Reader
/-!
# The program

Commands run on the files of the system, in the directory that the program is started in.
-/

namespace Schemata.Main

/-- The cause that an error of the system tells. -/
def causeOf : IO.Error → FileCause
  | .alreadyExists _ code words => .system code.toNat words
  | .noFileOrDirectory _ code words => .system code.toNat words
  | .permissionDenied _ code words => .system code.toNat words
  | .inappropriateType _ code words => .system code.toNat words
  | .resourceExhausted _ code words => .system code.toNat words
  | .invalidArgument _ code words => .system code.toNat words
  | .resourceBusy code words => .system code.toNat words
  | .hardwareFault code words => .system code.toNat words
  | .otherError code words => .system code.toNat words
  | e => .other e.toString

/-- What an action on a path gives, or the cause of its failure. -/
def attempt {α : Type} (path : String) (action : IO α) : IO (Except FileCause α) := do
  match checkPath path with
  | .error cause => return .error cause
  | .ok () =>
    match ← action.toBaseIO with
    | .ok a => return .ok a
    | .error e => return .error (causeOf e)

/-- The text of a file. -/
def readText (path : String) : IO (Except FileCause String) := do
  match ← attempt path (IO.FS.readBinFile path) with
  | .error cause => return .error cause
  | .ok bytes => return (String.fromUTF8? bytes).elim (.error .notText) .ok

instance : Files IO where
  pathExists path := return (← attempt path (IO.FS.realPath path)).isOk
  readText := readText
  writeText path text := attempt path (IO.FS.writeFile path text)
  createDirectories path := attempt path (IO.FS.createDirAll path)

def usage : String :=
  let p := Program.current
  let names := ", ".intercalate CommandLine.commands
  s!"Usage: {p.command} [OPTIONS] <COMMAND>\n\nCommands: {names}"

/-- What is told instead of carrying out a command line. -/
def explanation : CommandLine.Refusal → String
  | .versionWanted command => CommandLine.Refusal.versionText command
  | .helpWanted => usage ++ "\n"
  | .noArguments => usage ++ "\n"
  | .noCommand => s!"error: a command is missing\n\n{usage}\n"
  | .unknownCommand => s!"error: unrecognized command\n\n{usage}\n"
  | .unknownArgument => s!"error: unexpected argument\n\n{usage}\n"
  | .missingValue => "error: a value is required\n"
  | .unwantedValue => "error: unexpected value\n"
  | .invalidTarget => "error: invalid target\n"
  | .conflict => "error: arguments cannot be used together\n"
  | .missingTarget => "error: the target is not specified\n"

/-- Whether the output is shown by a terminal that nobody asked to be plain. -/
def wantsColors : IO Bool := do
  return (← (← IO.getStdout).isTty) && (← IO.getEnv "NO_COLOR").isNone

/-- Runs the command of a command line: its exit code. -/
def run (words : List String) : IO UInt32 := do
  match CommandLine.read words with
  | .error refusal =>
    let out ← if refusal.exitCode = 0 then IO.getStdout else IO.getStderr
    out.putStr (explanation refusal)
    return UInt32.ofNat refusal.exitCode
  | .ok invocation =>
    let directory := (← IO.currentDir).toString
    let colored := (← wantsColors) && !invocation.noColor
    match ← (Command.run ⟨directory, invocation.config, colored⟩ invocation.command).run with
    | .ok output =>
      unless output.isEmpty do IO.println output
      return 0
    | .error failure =>
      IO.eprintln s!"Error: {failure.message}"
      return 1

end Schemata.Main

def main (words : List String) : IO UInt32 := Schemata.Main.run words
