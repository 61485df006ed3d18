import Attestation.FileTree.OsError
import Attestation.Text.Hex

/-!
# What can go wrong with evidence

`Fault` lists every cause for which no evidence is given, `Fault.message` is the sentence that a user reads, and
`Fault.cause?` the answer of the operating system behind it, where there is one.
-/

namespace Attestation

/-- Why a text of bytes is no CCEL table. -/
inductive TableDefect where
  /-- The signature is missing. -/
  | wrongSignature
  /-- The table ends after this many bytes. -/
  | tooShort (length : Nat)
  deriving DecidableEq, Repr

/-- Evidence that this library does not produce. -/
inductive Unsupported where
  | sevReport
  | sgxReport
  | tpmReport
  | tpmMeasurement
  | tpmEventLog
  deriving DecidableEq, Repr

/-- Why there is no evidence. -/
inductive Fault where
  /-- No CCEL table or no event log beside it. -/
  | tableNotFound
  /-- The file of the CCEL table holds something else. -/
  | invalidTable (defect : TableDefect)
  /-- A field of a valid CCEL table cannot be read. -/
  | attributeUnreadable (field : String)
  /-- `needed` bytes were to be read at `offset` of a log of `available` bytes. -/
  | truncatedRecord (offset needed available : Nat)
  /-- The event log does not begin with its header. -/
  | missingHeader
  /-- A digest names an algorithm that the header does not declare. -/
  | unknownAlgorithm (algorithm : UInt16)
  /-- The window reaches past the `total` events of the log. -/
  | windowOutOfRange (start count total : Nat)
  /-- There is no event log at this path. -/
  | eventLogNotFound (path : String)
  /-- No device node is there, or none for this kind of device. -/
  | deviceNotFound
  /-- The device node at this path belongs to a driver that is no longer supported. -/
  | deprecatedDevice (path : String)
  /-- The report data has this many bytes. -/
  | reportDataTooLong (length : Nat)
  /-- There is no such runtime measurement register. -/
  | invalidRegister (index : Int)
  /-- A report has this many bytes. -/
  | malformedReport (length : Nat)
  /-- The text of a report is no base64. -/
  | invalidReportEncoding
  /-- The device node cannot be opened. -/
  | deviceUnopened (path : String) (cause : OsError)
  /-- The driver refused to give a report. -/
  | reportRefused (path : String) (cause : OsError)
  /-- This evidence is not produced. -/
  | notImplemented (what : Unsupported)
  /-- A file cannot be read. -/
  | unreadable (path : String) (cause : OsError)
  deriving DecidableEq, Repr

/-! ## Texts -/

def minTableLength : Nat := 56

def TableDefect.message : TableDefect → String
  | .wrongSignature => "wrong CCEL signature"
  | .tooShort length => toString length ++ " bytes, shorter than " ++ toString minTableLength

def Unsupported.name : Unsupported → String
  | .sevReport => "SEV report"
  | .sgxReport => "SGX report"
  | .tpmReport => "TPM report"
  | .tpmMeasurement => "TPM measurement"
  | .tpmEventLog => "TPM event log parsing"

namespace Fault

def message : Fault → String
  | tableNotFound => "CCEL table not found"
  | invalidTable defect => "CCEL table with invalid data: " ++ defect.message
  | attributeUnreadable field => "failed to read CCEL table attribute `" ++ field ++ "`"
  | truncatedRecord offset needed available =>
    "truncated record: need " ++ toString needed ++ " bytes at offset " ++ toString offset ++ ", only " ++
      toString available ++ " available"
  | missingHeader => "event log does not start with a SpecID (EV_NO_ACTION) header"
  | unknownAlgorithm algorithm =>
    "digest algorithm 0x" ++ Text.Hex.fixed 4 algorithm.toNat ++ " is not declared in the SpecID header"
  | windowOutOfRange start count total =>
    "invalid window: start " ++ toString start ++ " + count " ++ toString count ++ " exceeds event log length " ++
      toString total
  | eventLogNotFound path => "event log not found at " ++ path
  | deviceNotFound => "no applicable TEE device found"
  | deprecatedDevice path =>
    "deprecated device node " ++ path ++ " found, please upgrade to a v1.0 or v1.5 guest driver"
  | reportDataTooLong length =>
    "report data with invalid length " ++ toString length ++ ", must be no more than 64 bytes"
  | invalidRegister index => "invalid RTMR index " ++ toString index ++ " used"
  | malformedReport length => "malformed TD report: " ++ toString length ++ " bytes, expected 1024"
  | invalidReportEncoding => "invalid base64 encoded report"
  | deviceUnopened path _ => "failed to open device " ++ path
  | reportRefused path _ => "failed to get TD report from " ++ path
  | notImplemented what => what.name ++ " is not implemented"
  | unreadable path _ => "failed to read " ++ path

/-- What the operating system said, where it was asked. -/
def cause? : Fault → Option OsError
  | deviceUnopened _ cause | reportRefused _ cause | unreadable _ cause => some cause
  | _ => none

end Fault

end Attestation
