import Attestation.Device.Driver
import Attestation.FileTree.Basic
import Attestation.TdReport.Register
import Attestation.Text.Base64

/-!
# Evidence of a TDX guest

The deprecated node is looked for first and refused, so that a guest with the early driver is told to upgrade and does
not fall back silently. A report is asked for with at most 64 bytes of report data, padded with zeros; everything that
can be checked is checked before the node is opened.
-/

namespace Attestation.Tdx

def find (tree : FileTree) (nodes : TdxNodes) : Except Fault Device :=
  if tree.exists? nodes.deprecated then .error (.deprecatedDevice nodes.deprecated)
  else if tree.exists? nodes.v1_0 then .ok ⟨nodes.v1_0, .tdx .v1_0⟩
  else if tree.exists? nodes.v1_5 then .ok ⟨nodes.v1_5, .tdx .v1_5⟩
  else .error .deviceNotFound

/-- The report data with zeros behind it. -/
def padReportData (reportData : Bytes) : Except Fault (Block reportDataSize) :=
  if h : reportData.length ≤ reportDataSize then .ok (.padded reportDataSize reportData h)
  else .error (.reportDataTooLong reportData.length)

/-- The request that a device takes for the report data. -/
def request (device : Device) (data : Block reportDataSize) : Except Fault DriverRequest :=
  match device.kind with
  | .tdx driver =>
    match DriverRequest.forDriver? driver data with
    | some request => .ok request
    | none => .error (.deprecatedDevice device.path)
  | _ => .error .deviceNotFound

def openNode (tree : FileTree) (device : Device) : Except Fault Unit :=
  match tree.openDevice device.path with
  | .ok () => .ok ()
  | .error cause => .error (.deviceUnopened device.path cause)

def prepare (tree : FileTree) (device : Device) (reportData : Bytes) : Except Fault DriverRequest := do
  let data ← padReportData reportData
  let request ← request device data
  openNode tree device
  return request

def rawReport (tree : FileTree) (driver : Driver) (device : Device) (reportData : Bytes) :
    Inquiry (Block TdReport.size) :=
  match prepare tree device reportData with
  | .error fault => .ofResult (.error fault)
  | .ok request =>
    match driver request with
    | .ok report => ⟨.ok report, [request]⟩
    | .error cause => ⟨.error (.reportRefused device.path cause), [request]⟩

def report (tree : FileTree) (driver : Driver) (device : Device) (reportData : Bytes) : Inquiry String :=
  (rawReport tree driver device reportData).andThen fun report => .ok (Text.Base64.encode report.bytes)

/-- A register of a report in base64, in base64 itself. -/
def registerOfReport (index : Int) (report : String) : Except Fault String :=
  match Text.Base64.decode? report with
  | none => .error .invalidReportEncoding
  | some raw => Text.Base64.encode <$> TdReport.extractRegister raw index

/-- A register of a fresh report, in base64. The register is checked before the device is touched. -/
def register (tree : FileTree) (driver : Driver) (device : Device) (reportData : Bytes) (index : Int) :
    Inquiry String :=
  match TdReport.registerOffset index with
  | .error fault => .ofResult (.error fault)
  | .ok _ => (report tree driver device reportData).andThen (registerOfReport index)

end Attestation.Tdx
