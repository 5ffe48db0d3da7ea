/-!
# Paths

Paths are texts whose segments are separated by slashes. Nothing here looks at files: a path is
joined and taken apart as it is written, and only empty segments and single dots count for
nothing.
-/

namespace Schemata.Path

/-- The segments of a path, empty ones included. -/
def segments : List Char → List (List Char)
  | [] => [[]]
  | '/' :: cs => [] :: segments cs
  | c :: cs =>
    match segments cs with
    | [] => [[c]]
    | segment :: rest => (c :: segment) :: rest

/-- The path of segments. -/
def ofSegments : List (List Char) → List Char
  | [] => []
  | [segment] => segment
  | segment :: rest => segment ++ '/' :: ofSegments rest

/-- Whether a segment leads nowhere. -/
def isIdle (segment : List Char) : Bool := segment.isEmpty || segment = ['.']

def isAbsolute (path : String) : Bool := path.toList.head? = some '/'

/-- A path as it is seen from a directory. -/
def join (base path : String) : String :=
  if isAbsolute path then path
  else if base.isEmpty ∨ base.toList.getLast? = some '/' then base ++ path
  else base ++ "/" ++ path

/-- The segments without idle ones at the end. -/
def trimIdle : List (List Char) → List (List Char)
  | [] => []
  | segment :: rest =>
    match trimIdle rest with
    | [] => if isIdle segment then [] else [segment]
    | kept => segment :: kept

/-- The name that a path ends in, if it ends in one. -/
def fileName? (path : String) : Option (List Char) :=
  (trimIdle (segments path.toList)).getLast?.filter fun name => name ≠ ['.', '.']

/-- What stands behind the last dot of the name, unless the name begins with that dot. -/
def extension? (path : String) : Option String := do
  let name ← fileName? path
  let extension := (name.reverse.takeWhile (· ≠ '.')).reverse
  if extension.length + 1 < name.length then some (.ofList extension) else none

/-- The path without its last segment; nothing if it has none. -/
def parent? (path : String) : Option String :=
  match trimIdle (segments path.toList) with
  | [] => none
  | kept =>
    let rest := trimIdle kept.dropLast
    some (if rest.isEmpty && isAbsolute path then "/" else .ofList (ofSegments rest))

/-- A path and the paths that it lies below, as far as `fuel` goes. -/
def ancestorsWith : (fuel : Nat) → String → List String
  | 0, _ => []
  | fuel + 1, path =>
    path :: match parent? path with
      | some parent => ancestorsWith fuel parent
      | none => []

/-- A path and the paths that it lies below. -/
def ancestors (path : String) : List String := ancestorsWith (path.length + 1) path

end Schemata.Path
