import Attestation.Device.Basic
import Attestation.FileTree.Basic
import Attestation.Fault

/-!
# Evidence of a TPM

Nothing is read from a TPM yet: its registers and the text of its event log are not implemented. What is told apart is
whether there is an event log at all; an empty one counts as missing.
-/

namespace Attestation.Tpm

def measurement (_device : Device) (_index : Int) : Except Fault String := .error (.notImplemented .tpmMeasurement)

def eventLog (tree : FileTree) (nodes : TpmNodes) (_start _count : Nat) : Except Fault String :=
  match tree.read nodes.eventLog with
  | .error cause =>
    if cause = .notFound then .error (.eventLogNotFound nodes.eventLog)
    else .error (.unreadable nodes.eventLog cause)
  | .ok content =>
    if content.isEmpty then .error (.eventLogNotFound nodes.eventLog)
    else .error (.notImplemented .tpmEventLog)

end Attestation.Tpm
