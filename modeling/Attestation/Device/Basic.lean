/-!
# Device nodes

Evidence comes from device nodes of four kinds. Which nodes are looked for is a setting, and a node that was found is
a `Device`: its path with the kind that it was found as.
-/

namespace Attestation

/-- The driver behind a TDX node. -/
inductive TdxDriver where
  /-- An early driver that is no longer supported. -/
  | deprecated
  | v1_0
  | v1_5
  deriving DecidableEq, Repr

/-- What stands behind a node. -/
inductive DeviceKind where
  | tdx (driver : TdxDriver)
  | sev
  | sgx
  | tpm
  deriving DecidableEq, Repr

/-- A node with its kind. -/
structure Device where
  path : String
  kind : DeviceKind
  deriving DecidableEq, Repr

/-! ## Where nodes are looked for -/

/-- The nodes of the TDX drivers. -/
structure TdxNodes where
  deprecated : String := "/dev/tdx-attest"
  v1_0 : String := "/dev/tdx-guest"
  v1_5 : String := "/dev/tdx_guest"
  deriving DecidableEq, Repr, Inhabited

/-- The nodes of the SEV drivers. -/
structure SevNodes where
  guest : String := "/dev/sev-guest"
  legacy : String := "/dev/sev"
  deriving DecidableEq, Repr, Inhabited

/-- The node of the SGX driver. -/
structure SgxNodes where
  device : String := "/dev/sgx"
  deriving DecidableEq, Repr, Inhabited

/-- The node of the TPM driver, and the file of the firmware's own event log. -/
structure TpmNodes where
  device : String := "/dev/tpm0"
  eventLog : String := "/sys/kernel/security/tpm0/binary_bios_measurements"
  deriving DecidableEq, Repr, Inhabited

/-- The nodes of all kinds. -/
structure DeviceNodes where
  tdx : TdxNodes := {}
  sev : SevNodes := {}
  sgx : SgxNodes := {}
  tpm : TpmNodes := {}
  deriving DecidableEq, Repr, Inhabited

end Attestation
