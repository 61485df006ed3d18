import Attestation.Ccel.Table
import Attestation.EventLog.Decode
import Attestation.FileTree.Basic

/-!
# Finding the event log of the firmware

The CCEL table and the log lie in two files. Each is looked for under the mount that a container gets from its host,
then at the place where the kernel shows it. The first file that exists is taken, whatever it holds, and the two
files are chosen independently of each other.
-/

namespace Attestation.Ccel

/-- Where the CCEL table and the event log are looked for. -/
structure Paths where
  table : String := "/sys/firmware/acpi/tables/CCEL"
  tableMount : String := "/run/firmware/acpi/tables/CCEL"
  data : String := "/sys/firmware/acpi/tables/data/CCEL"
  dataMount : String := "/run/firmware/acpi/tables/data/CCEL"
  deriving DecidableEq, Repr, Inhabited

/-- A CCEL table with the event log beside it. -/
structure Located where
  table : Table
  data : Bytes
  deriving DecidableEq, Repr

/-- The first of the paths at which something stands. -/
def firstExisting (tree : FileTree) (candidates : List String) : Except Fault String :=
  match candidates.find? tree.exists? with
  | some path => .ok path
  | none => .error .tableNotFound

def readFile (tree : FileTree) (path : String) : Except Fault Bytes :=
  match tree.read path with
  | .ok content => .ok content
  | .error cause => .error (.unreadable path cause)

/-- The table and the event log, of which an empty one counts as missing. -/
def locate (tree : FileTree) (paths : Paths) : Except Fault Located := do
  let tablePath ← firstExisting tree [paths.tableMount, paths.table]
  let table ← Table.parse (← readFile tree tablePath)
  let dataPath ← firstExisting tree [paths.dataMount, paths.data]
  let data ← readFile tree dataPath
  if data.isEmpty then throw .tableNotFound
  return { table, data }

/-- The event log, with the address of its area from the table. -/
def Located.decode (located : Located) : Except Fault EventLog := do
  return (← EventLog.decode located.data).withAddress located.table.areaAddress

end Attestation.Ccel
