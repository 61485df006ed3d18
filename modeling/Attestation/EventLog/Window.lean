import Attestation.EventLog.Basic
import Attestation.Fault

/-!
# Windows of an event log

A window is a log again: the same header with a run of the events. A count of zero asks for the whole log, wherever in
it the start lies; any other window has to end before the last event of the log.
-/

namespace Attestation.EventLog

/-- The log with `count` events from `start` on, or with all of them if `count` is zero. -/
def window (log : EventLog) (start count : Nat) : Except Fault EventLog :=
  let total := log.events.length
  if count = 0 then
    if start ≤ total then .ok log else .error (.windowOutOfRange start count total)
  else if start + count < total then .ok { log with events := (log.events.drop start).take count }
  else .error (.windowOutOfRange start count total)

end Attestation.EventLog
