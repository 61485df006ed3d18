import Attestation.Settings.KeyPath

/-!
# Layers of settings

The values of a settings file are laid over the defaults one by one. Names do not depend on case and are kept in
lowercase. A table is laid over a table member by member; any other value takes the place of what was there. On the
way to a value whatever is no table, or no list, gives way to one.
-/

namespace Attestation.Settings

def fold (name : String) : String := String.ofList (name.toList.map Char.toLower)

/-- The members of a table; any other value has none. -/
def membersOf : Datum → Members
  | .table ms => ms
  | _ => []

/-- The items of a list; any other value has none. -/
def itemsOf : Datum → List Datum
  | .list items => items
  | _ => []

mutual

/-- Lays a value over the member of a name. -/
def layMember (ms : Members) (name : String) : Datum → Members
  | .table incoming => ms.put (fold name) (layAll ((ms.get? (fold name)).getD (.table [])) incoming)
  | v => ms.put (fold name) v

/-- Lays members over a value. -/
def layAll (target : Datum) : List (String × Datum) → Datum
  | [] => target
  | (name, v) :: rest => layAll (.table (layMember (membersOf target) name v)) rest

end

/-- The position that an index means in a list, and the list with nulls where it is too short for that. -/
def reach (items : List Datum) (index : Int) : Nat × List Datum :=
  let n := items.length
  if 0 ≤ index then (index.toNat, items ++ List.replicate (index.toNat + 1 - n) .null)
  else if -index ≤ n then ((n + index).toNat, items)
  else (0, List.replicate (-index - n).toNat .null ++ items)

/-- Lays a value over the place that the steps lead to. -/
def layAt : (steps : List KeyStep) → (target v : Datum) → Datum
  | [], _, v => v
  | [.member name], target, v => .table (layMember (membersOf target) name v)
  | .member name :: steps, target, v =>
    let ms := membersOf target
    .table (ms.put (fold name) (layAt steps ((ms.get? (fold name)).getD .null) v))
  | .item index :: steps, target, v =>
    let (position, items) := reach (itemsOf target) index
    .list (items.set position (layAt steps (items.getD position .null) v))

/-- Lays the members of the root of a file over a value. -/
def layFile (target : Datum) (root : Members) : Datum :=
  root.foldl (fun target m => layAt (stepsOf m.1) target m.2) target

end Attestation.Settings
