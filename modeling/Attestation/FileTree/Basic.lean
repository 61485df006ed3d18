import Attestation.Bytes
import Attestation.FileTree.OsError
import Attestation.FileTree.Path

/-!
# File trees

A file tree says what stands at each place below its root. A path text reaches a place by walking: each segment needs
a directory to stand in, `.` and an empty segment stay there, `..` goes up, and a name goes down.

* reading: `exists?`, `isDirectory`, `read`, `openDevice`;
* writing: `write` creates or replaces one file, `makeDirectory` adds one directory, `makeDirectories` also those
  above it; each gives the tree afterwards;
* keeping house: `remove`, `listing`.
-/

namespace Attestation

/-- What stands at one place. -/
inductive Entry where
  | directory
  | file (content : Bytes)
  deriving DecidableEq, Repr

/-- A place in a tree: the names from the root down. -/
abbrev Place := List String

/-- What a list of entries has at a place. The root is always a directory. -/
def Place.lookup (entries : List (Place × Entry)) : Place → Option Entry
  | [] => some .directory
  | name :: names => (entries.find? fun e => e.1 = name :: names).map (·.2)

/-- What stands at each place. -/
structure FileTree where
  /-- The places below the root. -/
  entries : List (Place × Entry)
  /-- Each place is listed once. -/
  distinct : (entries.map (·.1)).Nodup
  /-- The root is not listed, and each place lies in a directory of the tree. -/
  standing : ∀ e ∈ entries, e.1 ≠ [] ∧ Place.lookup entries e.1.dropLast = some .directory
  deriving DecidableEq, Repr

namespace FileTree

def empty : FileTree := ⟨[], .nil, by simp⟩

def get? (t : FileTree) (place : Place) : Option Entry := place.lookup t.entries

/-! ## Changing the entries -/

theorem lookup_eq_find? {entries : List (Place × Entry)} {place : Place} (h : place ≠ []) :
    place.lookup entries = (entries.find? fun e => e.1 = place).map (·.2) := by
  cases place with
  | nil => exact absurd rfl h
  | cons name names => rfl

theorem lookup_put {entries : List (Place × Entry)} {place : Place} (h : place ≠ []) (entry : Entry) (q : Place) :
    q.lookup ((place, entry) :: entries.filter fun e => e.1 ≠ place) =
      if q = place then some entry else q.lookup entries := by
  cases q with
  | nil => simp [Place.lookup, Ne.symm h]
  | cons name names =>
    rw [lookup_eq_find? (by simp), lookup_eq_find? (by simp), List.find?_cons]
    by_cases hq : place = name :: names
    · simp [hq]
    · simp only [hq, decide_false, List.find?_filter, if_neg (Ne.symm hq)]
      congr 2
      funext e
      by_cases he : e.1 = name :: names
      · simp [he, Ne.symm hq]
      · simp [he]

theorem lookup_remove {entries : List (Place × Entry)} {place q : Place} (h : place.isPrefixOf q = false) :
    q.lookup (entries.filter fun e => !place.isPrefixOf e.1) = q.lookup entries := by
  cases q with
  | nil => rfl
  | cons name names =>
    rw [lookup_eq_find? (by simp), lookup_eq_find? (by simp), List.find?_filter]
    congr 2
    funext e
    by_cases he : e.1 = name :: names
    · simp [he, h]
    · simp [he]

/-- The tree with `entry` at `place`, in the stead of a file that was there. Where nothing can be put because no
directory is around it, or because a directory is in its stead, the tree stays as it is. -/
def put (t : FileTree) (place : Place) (entry : Entry) : FileTree :=
  if h : place ≠ [] ∧ t.get? place.dropLast = some .directory ∧ t.get? place ≠ some .directory then
    { entries := (place, entry) :: t.entries.filter fun e => e.1 ≠ place
      distinct := by
        refine List.nodup_cons.2 ⟨by simp, ?_⟩
        exact t.distinct.sublist (List.filter_sublist.map _)
      standing := by
        obtain ⟨hp, hd, hn⟩ := h
        have parent : place.dropLast ≠ place := fun hc => by
          have hl := congrArg List.length hc
          have := List.length_pos_iff.2 hp
          rw [List.length_dropLast] at hl
          omega
        intro e he
        rw [lookup_put hp]
        rcases List.mem_cons.1 he with rfl | he
        · exact ⟨hp, by rw [if_neg parent]; exact hd⟩
        · obtain ⟨hne, hl⟩ := t.standing e (List.mem_filter.1 he).1
          refine ⟨hne, ?_⟩
          split
          · next hc => exact absurd (hc ▸ hl) hn
          · exact hl }
  else t

theorem get?_put {t : FileTree} {place : Place} (entry : Entry) (hp : place ≠ [])
    (hd : t.get? place.dropLast = some .directory) (hn : t.get? place ≠ some .directory) (q : Place) :
    (t.put place entry).get? q = if q = place then some entry else t.get? q := by
  rw [put, dif_pos ⟨hp, hd, hn⟩]
  exact lookup_put hp entry q

/-- The tree without what stands at a place and below it. -/
def erase (t : FileTree) (place : Place) : FileTree where
  entries := t.entries.filter fun e => !place.isPrefixOf e.1
  distinct := t.distinct.sublist (List.filter_sublist.map _)
  standing := by
    intro e he
    obtain ⟨hm, hk⟩ := List.mem_filter.1 he
    obtain ⟨hne, hl⟩ := t.standing e hm
    refine ⟨hne, ?_⟩
    rw [lookup_remove, hl]
    cases hb : place.isPrefixOf e.1.dropLast with
    | false => rfl
    | true =>
      have := (List.isPrefixOf_iff_prefix.1 hb).trans (List.dropLast_prefix e.1)
      simp [List.isPrefixOf_iff_prefix.2 this] at hk

/-! ## Walking -/

/-- The longest name, in bytes. -/
def maxName : Nat := 255

/-- The length in bytes from which on a path is refused. -/
def maxPath : Nat := 4096

def child (t : FileTree) (here : Place) (name : String) : Except OsError Place :=
  if maxName < name.utf8ByteSize then .error .nameTooLong
  else if (t.get? (here ++ [name])).isSome then .ok (here ++ [name])
  else .error .notFound

def step (t : FileTree) (here : Place) (segment : String) : Except OsError Place :=
  match t.get? here with
  | some .directory =>
    if segment = "" ∨ segment = "." then .ok here
    else if segment = ".." then .ok here.dropLast
    else t.child here segment
  | _ => .error .notADirectory

def walk (t : FileTree) : (here : Place) → (segments : List String) → Except OsError Place
  | here, [] => .ok here
  | here, s :: rest =>
    match t.step here s with
    | .ok next => t.walk next rest
    | .error e => .error e

/-- Refuses the texts that are never walked: the empty path, a path with a NUL, and one that is too long. -/
def checkPath (path : String) : Except OsError Unit :=
  if path.toList.contains '\x00' then .error .nulInPath
  else if path.isEmpty then .error .notFound
  else if maxPath ≤ path.utf8ByteSize then .error .nameTooLong
  else .ok ()

/-- The place that a path reaches. -/
def resolve (t : FileTree) (path : String) : Except OsError Place := do
  checkPath path
  t.walk [] (Path.segments path)

/-! ## Reading -/

def exists? (t : FileTree) (path : String) : Bool :=
  match t.resolve path with
  | .ok _ => true
  | .error _ => false

def isDirectory (t : FileTree) (path : String) : Bool :=
  match t.resolve path with
  | .ok place => t.get? place = some .directory
  | .error _ => false

def read (t : FileTree) (path : String) : Except OsError Bytes := do
  match t.get? (← t.resolve path) with
  | some (.file content) => .ok content
  | some .directory => .error .isADirectory
  | none => .error .notFound

/-- Whether the path can be opened for reading and writing, as a driver is opened. -/
def openDevice (t : FileTree) (path : String) : Except OsError Unit :=
  (fun _ => ()) <$> t.read path

/-! ## Writing -/

/-- Where a new entry is to be made. -/
inductive Target where
  /-- The path ends in the root, `.` or `..`, which can only be a directory. -/
  | noName
  /-- A name in a directory; `slash` says that the path ends with a slash. -/
  | name (directory : Place) (name : String) (slash : Bool)
  deriving DecidableEq, Repr

/-- Walks to the directory in which the last name of a path stands. -/
def target (t : FileTree) (path : String) : Except OsError Target := do
  checkPath path
  match (Path.segments path).reverse.dropWhile (· = "") with
  | [] => .ok .noName
  | last :: above =>
    let here ← t.walk [] above.reverse
    if t.get? here ≠ some .directory then throw .notADirectory
    if last = "." ∨ last = ".." then return .noName
    return .name here last (path.toList.getLast? = some '/')

/-- Writes a file, which is created or replaced. -/
def write (t : FileTree) (path : String) (content : Bytes) : Except OsError FileTree := do
  match ← t.target path with
  | .noName => .error .isADirectory
  | .name _ _ true => .error .isADirectory
  | .name here name false =>
    if maxName < name.utf8ByteSize then throw .nameTooLong
    if t.get? (here ++ [name]) = some .directory then throw .isADirectory
    return t.put (here ++ [name]) (.file content)

/-- Makes one directory in a directory that exists. -/
def makeDirectory (t : FileTree) (path : String) : Except OsError FileTree := do
  match ← t.target path with
  | .noName => .error .alreadyExists
  | .name here name _ =>
    if maxName < name.utf8ByteSize then throw .nameTooLong
    if (t.get? (here ++ [name])).isSome then throw .alreadyExists
    return t.put (here ++ [name]) .directory

/-- Makes the first directory of the list, after those that follow it when it has nothing to stand in. A directory
that is there already is as good as a new one. Directories made before a failure stay. -/
def makeFirst (t : FileTree) : (paths : List String) → Except OsError Unit × FileTree
  | [] => (.ok (), t)
  | path :: above =>
    match t.makeDirectory path with
    | .ok t => (.ok (), t)
    | .error e =>
      if e = .notFound then
        match t.makeFirst above with
        | (.error e, t) => (.error e, t)
        | (.ok (), t) =>
          match t.makeDirectory path with
          | .ok t => (.ok (), t)
          | .error e => if t.isDirectory path then (.ok (), t) else (.error e, t)
      else if t.isDirectory path then (.ok (), t)
      else (.error e, t)

/-- Makes a directory and what is missing above it. The empty path needs none. -/
def makeDirectories (t : FileTree) (path : String) : Except OsError Unit × FileTree :=
  if path.isEmpty then (.ok (), t) else t.makeFirst (Path.ancestors path)

/-! ## Keeping house -/

/-- The tree without the file or directory that the path reaches, and without all that is below it. -/
def remove (t : FileTree) (path : String) : Except OsError FileTree := t.erase <$> t.resolve path

/-- The line of one place in a listing: a directory ends with a slash, a file with its size. -/
def listingLine (place : Place) : Entry → String
  | .directory => "/" ++ "/".intercalate place ++ "/"
  | .file content => "/" ++ "/".intercalate place ++ " " ++ toString content.length

/-- Everything in the tree but the root, in order. -/
def listing (t : FileTree) : List String :=
  (t.entries.map fun e => listingLine e.1 e.2).mergeSort fun a b => decide (a ≤ b)

end FileTree

end Attestation
