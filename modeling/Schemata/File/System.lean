import Schemata.File.Path
/-!
# Files

What commands do with files, for any kind of effects, and why it may fail.
-/

namespace Schemata

/-- Why the system refuses something. -/
inductive FileCause where
  /-- An error of the system, by its number and its words. -/
  | system (code : Nat) (words : String)
  /-- Bytes that are no text. -/
  | notText
  /-- Anything else, in words alone. -/
  | other (words : String)
deriving DecidableEq

namespace FileCause

def notFound : FileCause := .system 2 "No such file or directory"

def alreadyExists : FileCause := .system 17 "File exists"

def notDirectory : FileCause := .system 20 "Not a directory"

def isDirectory : FileCause := .system 21 "Is a directory"

def nameTooLong : FileCause := .system 36 "File name too long"

def nulInName : FileCause := .other "file name contained an unexpected NUL byte"

def message : FileCause → String
  | .system code words => s!"{words} (os error {code})"
  | .notText => "stream did not contain valid UTF-8"
  | .other words => words

end FileCause

/-- Whether a text can be a path at all. -/
def checkPath (path : String) : Except FileCause Unit :=
  if '\x00' ∈ path.toList then .error .nulInName else .ok ()

/-- The effects on files that commands need. -/
class Files (m : Type → Type) where
  /-- Whether a path leads to a file or a directory. -/
  pathExists : String → m Bool
  readText : String → m (Except FileCause String)
  /-- Writes a file with a text, in place of all that it held. -/
  writeText : String → String → m (Except FileCause Unit)
  /-- Makes a path a directory, and all that it lies below. -/
  createDirectories : String → m (Except FileCause Unit)

/-- An action that may fail for other reasons has the same effects on files. -/
instance {ε : Type} {m : Type → Type} [Monad m] [Files m] : Files (ExceptT ε m) where
  pathExists path := ExceptT.lift (Files.pathExists path)
  readText path := ExceptT.lift (Files.readText path)
  writeText path text := ExceptT.lift (Files.writeText path text)
  createDirectories path := ExceptT.lift (Files.createDirectories path)

end Schemata
