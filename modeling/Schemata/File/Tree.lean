import Schemata.File.System
/-!
# File trees

A file system without links, as a value: its files and directories by the names that lead to them
from the root. Paths are walked segment by segment, so that whatever a path passes through has to
be there and to be a directory, even where it turns back.
-/

namespace Schemata

/-- What a file holds: a text, or bytes that are no text. -/
inductive Content where
  | text (text : String)
  | bytes (bytes : List UInt8)
deriving DecidableEq

namespace FileTree

inductive Entry where
  | file (content : Content)
  | directory
deriving DecidableEq

/-- The names that lead from the root to an entry, the last one in front. -/
abbrev Spot := List (List Char)

end FileTree

/-- The entries of a file system; the root is always a directory. -/
structure FileTree where
  entries : List (FileTree.Spot × FileTree.Entry)
deriving DecidableEq

namespace FileTree

def empty : FileTree := ⟨[]⟩

def entry? (t : FileTree) : Spot → Option Entry
  | [] => some .directory
  | spot => t.entries.lookup spot

/-- What the file at a spot holds. -/
def content? (t : FileTree) (spot : Spot) : Option Content :=
  match t.entry? spot with
  | some (.file content) => some content
  | _ => none

/-- Puts an entry at a spot, in the place of the one that is there. -/
def put (t : FileTree) (spot : Spot) (entry : Entry) : FileTree :=
  ⟨(spot, entry) :: t.entries.filter fun e => e.1 ≠ spot⟩

def remove (t : FileTree) (spot : Spot) : FileTree :=
  ⟨t.entries.filter fun e => e.1 ≠ spot⟩

/-- The spot one segment further. -/
def step (spot : Spot) (segment : List Char) : Spot :=
  if Path.isIdle segment then spot
  else if segment = ['.', '.'] then spot.tail
  else segment :: spot

/-- How many bytes a path may have. -/
def pathLimit : Nat := 4095

/-- How many bytes a name may have. -/
def nameLimit : Nat := 255

def byteCount (cs : List Char) : Nat := (String.ofList cs).utf8ByteSize

/-- Walks from a directory along segments. Each segment needs a directory to start from. -/
def walk (t : FileTree) : Spot → List (List Char) → Except FileCause Spot
  | spot, [] => .ok spot
  | spot, segment :: rest =>
    match t.entry? spot with
    | some .directory =>
      let next := step spot segment
      if nameLimit < byteCount segment then .error .nameTooLong
      else if (t.entry? next).isSome then walk t next rest
      else .error .notFound
    | some (.file _) => .error .notDirectory
    | none => .error .notFound

/-- Whether a path is short enough to be looked at. -/
def checkLength (path : String) : Except FileCause Unit := do
  checkPath path
  if pathLimit < path.utf8ByteSize then .error .nameTooLong

/-- Where a path leads to. -/
def find (t : FileTree) (path : String) : Except FileCause Spot := do
  checkLength path
  t.walk [] (Path.segments path.toList)

def isDirectory (t : FileTree) (path : String) : Bool :=
  match t.find path with
  | .ok spot => t.entry? spot = some .directory
  | .error _ => false

def pathExists (t : FileTree) (path : String) : Bool :=
  match t.find path with
  | .ok _ => true
  | .error _ => false

def readText (t : FileTree) (path : String) : Except FileCause String := do
  match t.entry? (← t.find path) with
  | some (.file (.text text)) => return text
  | some (.file (.bytes _)) => .error .notText
  | some .directory => .error .isDirectory
  | none => .error .notFound

/-- The segments of a path without empty ones at its end, and whether there were any. -/
def splitSlashes (path : String) : List (List Char) × Bool :=
  let segments := Path.segments path.toList
  let kept := (segments.reverse.dropWhile List.isEmpty).reverse
  (kept, kept.length < segments.length)

/-- The directory that holds the last name of a path, and that name. A path that ends in a dot has
no such name. -/
def findParent (t : FileTree) (path : String) : Except FileCause (Spot × Option (List Char)) := do
  checkLength path
  let (segments, _) := splitSlashes path
  match segments.getLast? with
  | none => return ([], none)
  | some name => do
    let parent ← t.walk [] segments.dropLast
    match t.entry? parent with
    | some .directory =>
      return (parent, if name = ['.'] ∨ name = ['.', '.'] then none else some name)
    | _ => .error .notDirectory

/-- Where a file is written that a path leads to: in a directory, and not in the place of one. -/
def target (t : FileTree) (path : String) : Except FileCause Spot := do
  let (parent, name) ← t.findParent path
  match name with
  | none => .error .isDirectory
  | some name =>
    if (splitSlashes path).2 then .error .isDirectory
    else
      let spot := name :: parent
      if nameLimit < byteCount name then .error .nameTooLong
      else if t.entry? spot = some .directory then .error .isDirectory
      else .ok spot

def write (t : FileTree) (path : String) (content : Content) : Except FileCause FileTree := do
  return t.put (← t.target path) (.file content)

/-- Makes a directory in a directory that is there. -/
def createDirectory (t : FileTree) (path : String) : Except FileCause FileTree := do
  let (parent, name) ← t.findParent path
  match name with
  | none => do
    let _ ← t.find path
    .error .alreadyExists
  | some name =>
    let spot := name :: parent
    if nameLimit < byteCount name then .error .nameTooLong
    else if (t.entry? spot).isSome then .error .alreadyExists
    else .ok (t.put spot .directory)

/-- Makes the first path a directory. If there is nothing that it could be made in, the paths
behind it are made directories before. -/
def createAll (t : FileTree) : List String → Except FileCause Unit × FileTree
  | [] => (.error .notFound, t)
  | path :: ancestors =>
    match t.createDirectory path with
    | .ok t => (.ok (), t)
    | .error cause =>
      if cause = .notFound then
        match t.createAll ancestors with
        | (.error cause, t) => (.error cause, t)
        | (.ok (), t) =>
          match t.createDirectory path with
          | .ok t => (.ok (), t)
          | .error cause => (if t.isDirectory path then .ok () else .error cause, t)
      else (if t.isDirectory path then .ok () else .error cause, t)

def createDirectories (t : FileTree) (path : String) : Except FileCause Unit × FileTree :=
  t.createAll (Path.ancestors path)

/-- Programs that change nothing but a file tree. -/
instance : Files (StateM FileTree) where
  pathExists path := fun t => (t.pathExists path, t)
  readText path := fun t => (t.readText path, t)
  writeText path text := fun t =>
    match t.write path (.text text) with
    | .ok t => (.ok (), t)
    | .error cause => (.error cause, t)
  createDirectories path := fun t => t.createDirectories path

end FileTree
end Schemata
