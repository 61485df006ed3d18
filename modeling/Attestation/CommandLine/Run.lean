import Attestation.CommandLine.Invocation
import Attestation.Service.EventLog
import Attestation.Service.Measurement
import Attestation.TdReport.Document

/-!
# Running the command line

A command issues one request on the guest to the service and prints the reply on a line of its own. When it fails, it
prints what it was about, and below that the chain of causes. The outcome holds everything that the command does: what
it prints, its exit code, the file tree afterwards and the driver requests.
-/

namespace Attestation.CommandLine

/-- What a command prints, and its exit code. -/
structure Outcome where
  exit : Nat
  out : String
  err : String
  deriving DecidableEq, Repr

/-- An outcome with its effects. -/
structure Effects where
  outcome : Outcome
  tree : FileTree
  requests : List DriverRequest

/-! ## What is printed -/

def versionText : String := "ccnp_oneshot 0.1.0"

def success (reply : String) : Outcome := ⟨0, reply ++ "\n", ""⟩

/-- The outcome of a command line that is not carried out. The usage is not printed. -/
def stopped : Stop → Outcome
  | .refused => ⟨2, "", ""⟩
  | .help => ⟨0, "", ""⟩
  | .version => success versionText

/-- A text of several lines with `first` in front of it and `others` in front of each further line. -/
def hanging (first others text : String) : String :=
  first ++ ("\n" ++ others).intercalate ((text.toList.splitOn '\n').map String.ofList)

def column (n : Nat) : String :=
  let ds := Nat.toDigits 10 n
  String.ofList (List.replicate (5 - ds.length) ' ' ++ ds)

/-- A chain of causes, numbered if there are several. -/
def causeLines : List String → List String
  | [cause] => [hanging "    " "    " cause]
  | causes => causes.zipIdx.map fun (cause, n) => hanging (column n ++ ": ") "       " cause

def failure (context : String) (fault : ServiceFault) : Outcome :=
  let causes := fault.message :: (fault.cause?.map OsError.message).toList
  ⟨1, "", "\n".intercalate (["Error: " ++ context, "", "Caused by:"] ++ causeLines causes) ++ "\n"⟩

/-! ## Requests -/

def guestLevel : Int := 1

def categoryNumber : EventLogCategory → Int
  | .tdx => 0
  | .tpm => 1

def measurementRequest (category : Int) (reportData : String) (register : Int) : MeasurementRequest :=
  { level := guestLevel, category, reportData, register }

def Operation.context : Operation → String
  | .eventLog .. => "get eventlog failed"
  | .report .. => "get TEE report failed"
  | .register .. => "get RTMR failed"
  | .tpm _ => "get TPM measurement failed"

def decodedReport (report : String) : Outcome :=
  match Text.Base64.decode? report with
  | none => failure "invalid base64 report" (.evidence .invalidReportEncoding)
  | some raw =>
    match TdReport.decode raw with
    | .error fault => failure "decode TD report failed" (.evidence fault)
    | .ok report => success report.indentedText

def replied (operation : Operation) (print : String → Outcome) : Except ServiceFault String → Outcome
  | .ok reply => print reply
  | .error fault => failure operation.context fault

def perform (settings : Settings) (tree : FileTree) (driver : Driver) (operation : Operation) : Effects :=
  let measure (request : MeasurementRequest) (print : String → Outcome) : Effects :=
    let answer := Service.getMeasurement settings tree driver request
    ⟨replied operation print answer.result, tree, answer.requests⟩
  match operation with
  | .eventLog category start count =>
    let request := { level := guestLevel, category := categoryNumber category, start, count }
    let (reply, tree) := Service.getEventLog settings tree request
    ⟨replied operation success reply, tree, []⟩
  | .report reportData decoded =>
    measure (measurementRequest 0 reportData 0) (if decoded then decodedReport else success)
  | .register index reportData => measure (measurementRequest 1 reportData index) success
  | .tpm index => measure (measurementRequest 2 "" index) success

/-- Runs a command line. `load` gives the settings of a path; `ambient?` names the settings file where the command line
names none. -/
def run (load : Option String → Except ServiceFault Settings) (ambient? : Option String) (tree : FileTree)
    (driver : Driver) (words : List String) : Effects :=
  match Invocation.parse words with
  | .error stop => ⟨stopped stop, tree, []⟩
  | .ok invocation =>
    match load (invocation.settingsPath?.or ambient?) with
    | .error fault => ⟨failure "failed to initialize ccnp config" fault, tree, []⟩
    | .ok settings => perform settings tree driver invocation.operation

end Attestation.CommandLine
