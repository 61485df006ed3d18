import Attestation.Device.Tdx
import Attestation.Device.Tpm

/-!
# Backends

A backend knows how to find the device of one technology and how to get a report from it. A list of backends acts as
one: discovery tries them in order, and a backend without a device lets the next one try, while any other failure ends
the search. A report comes from the first backend that handles the kind of the device.
-/

namespace Attestation

/-- One technology, with the nodes that are looked for. -/
inductive Backend where
  | tdx (nodes : TdxNodes)
  | sev (nodes : SevNodes)
  | sgx (nodes : SgxNodes)
  | tpm (nodes : TpmNodes)
  deriving DecidableEq, Repr

namespace Backend

/-! ## One backend -/

def name : Backend → String
  | tdx _ => "TDX"
  | sev _ => "SEV"
  | sgx _ => "SGX"
  | tpm _ => "TPM"

def handles : Backend → DeviceKind → Bool
  | tdx _, .tdx _ => true
  | sev _, .sev => true
  | sgx _, .sgx => true
  | tpm _, .tpm => true
  | _, _ => false

/-- The first node that exists, as a device of a kind. -/
def firstNode (tree : FileTree) (kind : DeviceKind) (paths : List String) : Except Fault Device :=
  match paths.find? tree.exists? with
  | some path => .ok ⟨path, kind⟩
  | none => .error .deviceNotFound

def find (tree : FileTree) : Backend → Except Fault Device
  | tdx nodes => Tdx.find tree nodes
  | sev nodes => firstNode tree .sev [nodes.guest, nodes.legacy]
  | sgx nodes => firstNode tree .sgx [nodes.device]
  | tpm nodes => firstNode tree .tpm [nodes.device]

/-- A report of a device, bound to the report data. -/
def report (tree : FileTree) (driver : Driver) (device : Device) (reportData : Bytes) : Backend → Inquiry String
  | tdx _ => Tdx.report tree driver device reportData
  | sev _ => .ofResult (.error (.notImplemented .sevReport))
  | sgx _ => .ofResult (.error (.notImplemented .sgxReport))
  | tpm _ => .ofResult (.error (.notImplemented .tpmReport))

/-! ## Several backends -/

def ofNodes (nodes : DeviceNodes) : List Backend := [tdx nodes.tdx, sev nodes.sev]

def listName : String := "Base"

/-- Whether one of the backends serves devices of this kind. -/
def anyHandles (backends : List Backend) (kind : DeviceKind) : Bool := backends.any (·.handles kind)

def findFirst (tree : FileTree) : (backends : List Backend) → Except Fault Device
  | [] => .error .deviceNotFound
  | backend :: rest =>
    match backend.find tree with
    | .error .deviceNotFound => findFirst tree rest
    | result => result

/-- A report of a device, from the first backend that handles its kind. -/
def reportFirst (tree : FileTree) (driver : Driver) (device : Device) (reportData : Bytes)
    (backends : List Backend) : Inquiry String :=
  match backends.find? (·.handles device.kind) with
  | some backend => backend.report tree driver device reportData
  | none => .ofResult (.error .deviceNotFound)

end Backend

end Attestation
