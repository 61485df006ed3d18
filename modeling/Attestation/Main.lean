import Attestation.CommandLine.Run
import Attestation.Settings.Load

/-!
# The program

The file system is looked at first: what stands at the paths of the settings becomes a `FileTree`, on which the command
is run, and of the tree afterwards the event log document is written back. Device nodes are opened and not read. No
request reaches a driver from here, so a node that is found refuses to give a report.
-/

namespace Attestation.Program

/-- The environment variable that names the settings file. -/
def settingsVariable : String := "CCNP_CONFIG_PATH"

/-- The tree with an entry at a path, and with the directories above it. -/
def record (tree : FileTree) (path : String) (entry : Entry) : FileTree :=
  let place := Path.place path
  let above := (List.range place.length).map place.take
  let tree := above.foldl (fun tree p => if (tree.get? p).isSome then tree else tree.put p .directory) tree
  if place.isEmpty then tree else tree.put place entry

/-- The tree with what stands at a path, of which only a file that can be read or a directory counts. -/
def observe (tree : FileTree) (path : String) : IO FileTree := do
  try
    let content ← IO.FS.readBinFile path
    return record tree path (.file content.data.toList)
  catch
    | .inappropriateType .. => return record tree path .directory
    | _ => return tree

/-- The tree with a device node, if there is one at the path. -/
def observeNode (tree : FileTree) (path : String) : IO FileTree := do
  try
    let _ ← IO.FS.Handle.mk path .read
    return record tree path (.file [])
  catch _ => return tree

def filesOf (s : Settings) : List String :=
  [s.ccel.table, s.ccel.tableMount, s.ccel.data, s.ccel.dataMount, s.devices.tpm.eventLog, s.cacheDirectory,
    s.cachePath]

def nodesOf (s : Settings) : List String :=
  [s.devices.tdx.deprecated, s.devices.tdx.v1_0, s.devices.tdx.v1_5, s.devices.sev.guest, s.devices.sev.legacy,
    s.devices.sgx.device, s.devices.tpm.device]

/-- Writes the document of a command that made one. -/
def writeBack (s : Settings) (before after : FileTree) : IO Unit := do
  if before ≠ after then
    if let .ok content := after.read s.cachePath then
      if !s.cacheDirectory.isEmpty then IO.FS.createDirAll s.cacheDirectory
      IO.FS.writeBinFile s.cachePath ⟨content.toArray⟩

def run (words : List String) : IO UInt32 := do
  let ambient? ← IO.getEnv settingsVariable
  let path? := match CommandLine.Invocation.parse words with
    | .ok invocation => invocation.settingsPath?.or ambient?
    | .error _ => none
  let loaded := Settings.load (← path?.toList.foldlM observe .empty) path?
  let before ← match loaded with
    | .ok s => do (filesOf s).foldlM observe (← (nodesOf s).foldlM observeNode .empty)
    | .error _ => pure .empty
  let effects := CommandLine.run (fun _ => loaded) ambient? before .absent words
  if let .ok s := loaded then writeBack s before effects.tree
  IO.print effects.outcome.out
  IO.eprint effects.outcome.err
  return UInt32.ofNat effects.outcome.exit

end Attestation.Program

def main (words : List String) : IO UInt32 := Attestation.Program.run words
