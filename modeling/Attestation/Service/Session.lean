import Attestation.Service.EventLog
import Attestation.Service.Measurement

/-!
# Sessions

A session serves requests of both kinds, each on the tree that the one before it left. The driver behind the device
nodes need not answer alike at every turn. The answer to a request for an event log tells, beside the file that the
reply names, what this file holds when the request has been served.
-/

namespace Attestation.Service

/-- A request of either kind. -/
inductive Request where
  | eventLog (request : EventLogRequest)
  | measurement (request : MeasurementRequest)
  deriving DecidableEq, Repr

/-- A request with the driver that is there while it is served. -/
structure Turn where
  request : Request
  driver : Driver

/-- The file that a reply names, and what it holds. -/
structure Served where
  path : String
  content : Except OsError Bytes

/-- An answer of either kind. -/
inductive Answer where
  | eventLog (result : Except ServiceFault Served)
  | measurement (answer : MeasurementAnswer)

/-- Serves one request. -/
def serve (settings : Settings) (tree : FileTree) (turn : Turn) : Answer × FileTree :=
  match turn.request with
  | .eventLog request =>
    match getEventLog settings tree request with
    | (.error fault, after) => (.eventLog (.error fault), after)
    | (.ok path, after) => (.eventLog (.ok ⟨path, after.read path⟩), after)
  | .measurement request => (.measurement (getMeasurement settings tree turn.driver request), tree)

/-- Serves requests one after the other. -/
def serveAll (settings : Settings) (tree : FileTree) : (turns : List Turn) → List Answer × FileTree
  | [] => ([], tree)
  | turn :: turns =>
    let (answer, next) := serve settings tree turn
    let (answers, after) := serveAll settings next turns
    (answer :: answers, after)

end Attestation.Service
