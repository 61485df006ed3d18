import Attestation.Device.Backend
import Attestation.Service.Request
import Attestation.Settings.Basic

/-!
# Serving measurements

A measurement is a report or a register, in base64. A request is checked before any device is looked for. The file tree
is only read, and the driver requests that were issued are part of the answer.
-/

namespace Attestation.Service

/-- An answer with the driver requests that were issued for it. -/
structure MeasurementAnswer where
  result : Except ServiceFault String
  requests : List DriverRequest

def teeReport (nodes : DeviceNodes) (tree : FileTree) (driver : Driver) (reportData : Bytes) : Inquiry String :=
  let backends := Backend.ofNodes nodes
  match Backend.findFirst tree backends with
  | .error fault => .ofResult (.error fault)
  | .ok device => Backend.reportFirst tree driver device reportData backends

/-- A runtime measurement register; it is checked before a device is looked for. -/
def tdxRegister (nodes : TdxNodes) (tree : FileTree) (driver : Driver) (reportData : Bytes) (register : Int) :
    Inquiry String :=
  match TdReport.registerOffset register with
  | .error fault => .ofResult (.error fault)
  | .ok _ =>
    match Tdx.find tree nodes with
    | .error fault => .ofResult (.error fault)
    | .ok device => Tdx.register tree driver device reportData register

def tpmRegister (nodes : TpmNodes) (tree : FileTree) (register : Int) : Except Fault String := do
  let device ← (Backend.tpm nodes).find tree
  Tpm.measurement device register

def guestMeasurement (settings : Settings) (tree : FileTree) (driver : Driver) (category : MeasurementCategory)
    (reportData : Bytes) (register : Int) : Inquiry String :=
  match category with
  | .teeReport => teeReport settings.devices tree driver reportData
  | .tdxRegister => tdxRegister settings.devices.tdx tree driver reportData register
  | .tpm => .ofResult (tpmRegister settings.devices.tpm tree register)

/-- The category of a checked request, or nothing where the reply is empty. -/
def measurementCategory? (request : MeasurementRequest) : Except ServiceFault (Option MeasurementCategory) := do
  let _ ← nonNegative .negativeRegister request.register
  match ← Level.ofNumber request.level with
  | .saas => return none
  | .paas => return some (← MeasurementCategory.ofNumber request.category)

def getMeasurement (settings : Settings) (tree : FileTree) (driver : Driver) (request : MeasurementRequest) :
    MeasurementAnswer :=
  match measurementCategory? request with
  | .error fault => ⟨.error fault, []⟩
  | .ok none => ⟨.ok "", []⟩
  | .ok (some category) =>
    let inquiry :=
      guestMeasurement settings tree driver category (Bytes.ofText request.reportData) request.register
    ⟨inquiry.result.mapError .evidence, inquiry.requests⟩

end Attestation.Service
