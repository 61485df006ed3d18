import Attestation.Toml.Value

/-!
# TOML documents

A document is a sequence of lines: comments, keys with values, headers of tables and of lists of tables. A key belongs
to the table of the last header above it, or to the root. `Toml.read?` gives the members of the root, or nothing for a
text that is no document.
-/

namespace Attestation.Toml

/-- A line of a document that says something. -/
inductive Statement where
  | value (key : Key) (v : Datum)
  | table (key : Key)
  | tables (key : Key)

def readHeader (fuel : Nat) (cs : List Char) : Option (Statement × List Char) := do
  match cs with
  | '[' :: cs =>
    let (key, rest) ← readKey fuel cs
    match rest with
    | ']' :: ']' :: rest => return (.tables key, ← finishLine rest)
    | _ => none
  | cs =>
    let (key, rest) ← readKey fuel cs
    match rest with
    | ']' :: rest => return (.table key, ← finishLine rest)
    | _ => none

def readAssignment (fuel : Nat) (cs : List Char) : Option (Statement × List Char) := do
  let (key, rest) ← readKey fuel cs
  match rest with
  | '=' :: rest =>
    let (v, rest) ← readValue 0 (2 * fuel + 2) (skipBlanks rest)
    return (.value key v, ← finishLine rest)
  | _ => none

/-- The statements of a text, behind those read before in reverse. -/
def readStatements : (fuel : Nat) → (acc : List Statement) → List Char → Option (List Statement)
  | 0, _, _ => none
  | fuel + 1, acc, cs =>
    match skipBlanks cs with
    | [] => some acc.reverse
    | '#' :: rest => (readLineEnd (skipComment ('#' :: rest))).bind (readStatements fuel acc)
    | '\n' :: rest => readStatements fuel acc rest
    | '\r' :: rest => (readNewline ('\r' :: rest)).bind (readStatements fuel acc)
    | '[' :: rest => (readHeader fuel rest).bind fun (s, rest) => readStatements fuel (s :: acc) rest
    | cs => (readAssignment fuel cs).bind fun (s, rest) => readStatements fuel (s :: acc) rest

/-- A document in the making: its root, and the key of the last header. -/
structure Draft where
  root : Children
  current : Option Key

def Draft.add (d : Draft) : Statement → Option Draft
  | .value key v =>
    let path := match d.current with
      | none => []
      | some header => header.path ++ [header.name]
    (descend false (addValue key v) path .header d.root).map fun root => { d with root }
  | .table key => (addTable key d.root).map fun root => { root, current := some key }
  | .tables key => (addToTables key d.root).map fun root => { root, current := some key }

/-- The members of the root of a document, in front of which a byte order mark may stand. -/
def read? (text : String) : Option Members := do
  let cs := match text.toList with
    | '\uFEFF' :: cs => cs
    | cs => cs
  let statements ← readStatements (cs.length + 1) [] cs
  let draft ← statements.foldlM Draft.add ⟨[], none⟩
  match resolve (.table (toMembers draft.root)) with
  | some (.table root) => some root
  | _ => none

end Attestation.Toml
