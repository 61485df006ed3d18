import Attestation.TdReport.Basic

/-!
# Runtime measurement registers

A report holds four registers of 48 bytes. One is taken from the bytes of a report with `TdReport.extractRegister`, or
from its fields with `TdReport.register`.
-/

namespace Attestation.TdReport

def registerCount : Nat := 4

def registerSize : Nat := 48

def registersOffset : Nat := 0x2d0

/-- The position of a register among the four. -/
def registerPosition (index : Int) : Except Fault Nat :=
  if 0 ≤ index ∧ index < registerCount then .ok index.toNat else .error (.invalidRegister index)

def registerOffset (index : Int) : Except Fault Nat := do
  return registersOffset + registerSize * (← registerPosition index)

/-- The bytes of a register, from the bytes of a report. The register is checked first. -/
def extractRegister (raw : Bytes) (index : Int) : Except Fault Bytes := do
  let offset ← registerOffset index
  if raw.length ≠ size then throw (.malformedReport raw.length)
  return (raw.drop offset).take registerSize

def register (report : TdReport) (index : Int) : Except Fault Bytes := do
  let position ← registerPosition index
  return (report.info.rtmr.bytes.drop (registerSize * position)).take registerSize

end Attestation.TdReport
