import Attestation.Datum
import Attestation.Toml.Lexical

/-!
# Tables of TOML

A document defines its tables piece by piece, in any order, but each of them only once and in one way: by a header, by
dotted keys, or along the way of a longer header, in which case its own header may still follow. `Node` keeps how each
table came about, and the functions here add a piece or refuse it.
-/

namespace Attestation.Toml

/-- How a table came about. -/
inductive Origin where
  /-- By a header of its own. -/
  | header
  /-- On the way to the table of another header. -/
  | implied
  /-- On the way of a dotted key. -/
  | dotted
  deriving DecidableEq, Repr

/-- A part of a document. -/
inductive Node where
  /-- A value, which nothing can be added to. -/
  | value (v : Datum)
  | table (origin : Origin) (children : List (String × Node))
  /-- A list of tables, of which only the last can still grow. -/
  | tables (finished : List Datum) (last : List (String × Node))
  deriving Inhabited

abbrev Children := List (String × Node)

def Children.get? (children : Children) (name : String) : Option Node :=
  (children.find? fun c => c.1 = name).map (·.2)

/-- The parts with `node` under a name, in the place of an earlier one. -/
def Children.put (children : Children) (name : String) (node : Node) : Children :=
  match children with
  | [] => [(name, node)]
  | c :: rest => if c.1 = name then (name, node) :: rest else c :: put rest name node

mutual

def Node.toDatum : Node → Datum
  | .value v => v
  | .table _ children => .table (toMembers children)
  | .tables finished last => .list (finished ++ [.table (toMembers last)])

def toMembers : List (String × Node) → Members
  | [] => []
  | (name, node) :: rest => (name, node.toDatum) :: toMembers rest

end

/-- Changes the table that a path leads to, of which the missing tables are made on the way. A dotted key does not lead
through a table that has a header. -/
def descend (dotted : Bool) (change : Origin → Children → Option Children) :
    (path : List String) → Origin → Children → Option Children
  | [], origin, children => change origin children
  | name :: path, _, children =>
    match children.get? name with
    | none =>
      let origin := if dotted then Origin.dotted else .implied
      (descend dotted change path origin []).map fun inner => children.put name (.table origin inner)
    | some (.value _) => none
    | some (.table origin inner) =>
      if dotted ∧ origin = .header then none
      else (descend dotted change path origin inner).map fun inner => children.put name (.table origin inner)
    | some (.tables finished last) =>
      (descend dotted change path .header last).map fun last => children.put name (.tables finished last)

/-- Adds a value under a key. A dotted key adds to no table but those that dotted keys made. -/
def addValue (key : Key) (v : Datum) (origin : Origin) (children : Children) : Option Children :=
  descend true (fun origin children =>
    if decide (origin = .dotted) = key.path.isEmpty then none
    else if (children.get? key.name).isSome then none
    else some (children.put key.name (.value v))) key.path origin children

/-- Begins the table of a header, which comes behind the other parts of the table around it. -/
def addTable (key : Key) (root : Children) : Option Children :=
  descend false (fun _ children =>
    match children.get? key.name with
    | none => some (children.put key.name (.table .header []))
    | some (.table .implied inner) =>
      let others : Children := children.filter fun c => c.1 ≠ key.name
      some (others.put key.name (.table .header inner))
    | some _ => none) key.path .header root

/-- Begins the next table of a list of tables. -/
def addToTables (key : Key) (root : Children) : Option Children :=
  descend false (fun _ children =>
    match children.get? key.name with
    | none => some (children.put key.name (.tables [] []))
    | some (.tables finished last) =>
      some (children.put key.name (.tables (finished ++ [.table (toMembers last)]) []))
    | some _ => none) key.path .header root

def inlineMembers (pairs : List (Key × Datum)) : Option Members :=
  (pairs.foldlM (fun children (p : Key × Datum) => addValue p.1 p.2 .header children) []).map toMembers

end Attestation.Toml
