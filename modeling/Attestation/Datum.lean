import Attestation.Number.Binary64

/-!
# Data without a schema

Documents and settings files are trees of values: a `Datum` is a scalar, a list, or a table whose members have names
and keep their order. `Members.put` adds a member or replaces it where it stands, so a table built with it names each
member once.
-/

namespace Attestation

/-- A value of a document. -/
inductive Datum where
  | null
  | boolean (b : Bool)
  | integer (n : Int)
  | real (x : Binary64)
  | text (s : String)
  | list (items : List Datum)
  | table (members : List (String × Datum))
  deriving Repr, Inhabited

abbrev Members := List (String × Datum)

namespace Members

def get? (ms : Members) (name : String) : Option Datum := (ms.find? fun m => m.1 = name).map (·.2)

/-- The members with `name` standing for `value`: in the place of an earlier member of that name, or at the end. -/
def put (ms : Members) (name : String) (value : Datum) : Members :=
  match ms with
  | [] => [(name, value)]
  | m :: rest => if m.1 = name then (name, value) :: rest else m :: put rest name value

end Members

namespace Datum

/-- A natural number as a value. -/
def ofNat (n : Nat) : Datum := .integer n

end Datum

end Attestation
