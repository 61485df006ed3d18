/-!
# Path texts

A path is a text whose segments are separated by slashes. Nothing here looks at a file tree: `Path.segments` cuts a
path, `Path.join` puts a file name behind a directory, `Path.place` says which place a path names, and
`Path.ancestors` lists a path with the directories above it, nearest first.
-/

namespace Attestation.Path

/-- The texts between the slashes of a path, empty ones included. -/
def segments (path : String) : List String := (path.toList.splitOn '/').map String.ofList

def isAbsolute (path : String) : Bool := path.toList.head? = some '/'

/-- The path of `file` inside `directory`. An absolute `file` stands for itself, and nothing is normalised. -/
def join (directory file : String) : String :=
  if isAbsolute file then file
  else if directory.isEmpty || directory.toList.getLast? = some '/' then directory ++ file
  else directory ++ "/" ++ file

/-- The segments that name something: empty ones and single dots are dropped. -/
def names (path : String) : List String := (segments path).filter fun s => s ≠ "" ∧ s ≠ "."

/-- The place that a name leads to: one level up for two dots, and one level down for any other. -/
def descend (place : List String) (name : String) : List String :=
  if name = ".." then place.dropLast else place ++ [name]

/-- The place that a path names, from the root down. -/
def place (path : String) : List String := (names path).foldl descend []

/-- A path from its names, from the root if `absolute`. -/
def ofNames (absolute : Bool) (names : List String) : String :=
  (if absolute then "/" else "") ++ "/".intercalate names

/-- The path as it stands, then each directory above it up to the root, or up to the first name of a relative path. -/
def ancestors (path : String) : List String :=
  let names := names path
  let above := (List.range names.length).reverse.map fun n => ofNames (isAbsolute path) (names.take n)
  path :: if isAbsolute path then above else above.dropLast

/-- What follows the last dot of the last name, unless that dot begins the name. -/
def extension (path : String) : Option String :=
  match (names path).getLast? with
  | none => none
  | some ".." => none
  | some name =>
    let cs := name.toList
    let tail := cs.reverse.takeWhile (· ≠ '.')
    if tail.length + 1 < cs.length then some (String.ofList tail.reverse) else none

end Attestation.Path
