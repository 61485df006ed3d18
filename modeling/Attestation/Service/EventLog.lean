import Attestation.EventLog.Document
import Attestation.EventLog.Window
import Attestation.Device.Tpm
import Attestation.Service.Request
import Attestation.Settings.Basic

/-!
# Serving event logs

The document that answers a request is written to the cache file, and the reply names that file. A request is checked
before any evidence is looked at, and nothing is written before the document is complete.
-/

namespace Attestation.Service

/-- The document of a window of the firmware's event log. -/
def ccelDocument (settings : Settings) (tree : FileTree) (start count : Nat) : Except Fault String := do
  let located ← Ccel.locate tree settings.ccel
  let log ← located.decode
  let window ← log.window start count
  return window.document settings.digestStyle

def guestEventLog (settings : Settings) (tree : FileTree) (category : EventLogCategory) (start count : Nat) :
    Except Fault String :=
  match category with
  | .tdx => ccelDocument settings tree start count
  | .tpm => Tpm.eventLog tree settings.devices.tpm start count

def eventLogDocument (settings : Settings) (tree : FileTree) (request : EventLogRequest) :
    Except ServiceFault String := do
  let start ← nonNegative .negativeStart request.start
  let count ← nonNegative .negativeCount request.count
  match ← Level.ofNumber request.level with
  | .saas => return ""
  | .paas =>
    let category ← EventLogCategory.ofNumber request.category
    (guestEventLog settings tree category start count).mapError .evidence

/-- Writes a document to the cache file, of which the directory is made first. -/
def cacheDocument (settings : Settings) (tree : FileTree) (document : String) :
    Except ServiceFault String × FileTree :=
  let path := settings.cachePath
  match tree.makeDirectories settings.cacheDirectory with
  | (.error cause, tree) => (.error (.cacheUnwritten path cause), tree)
  | (.ok (), tree) =>
    match tree.write path (Bytes.ofText document) with
    | .error cause => (.error (.cacheUnwritten path cause), tree)
    | .ok tree => (.ok path, tree)

/-- Answers a request with the path of the document, and gives the tree afterwards. -/
def getEventLog (settings : Settings) (tree : FileTree) (request : EventLogRequest) :
    Except ServiceFault String × FileTree :=
  match eventLogDocument settings tree request with
  | .error fault => (.error fault, tree)
  | .ok document => cacheDocument settings tree document

end Attestation.Service
