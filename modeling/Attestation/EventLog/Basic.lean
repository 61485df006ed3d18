import Attestation.Bytes
import Attestation.EventLog.DigestTable

/-!
# Event logs

An event log records what was measured into the registers of a guest: a header that declares the digest algorithms,
then events in the order in which they were measured. Every part keeps the bytes that it was read from.
-/

namespace Attestation

namespace EventLog

/-- The event type of the header, and of events that are measured into no register. -/
def noAction : UInt32 := 3

/-- The register field that ends a log. -/
def endMarker : UInt32 := 0xFFFFFFFF

/-- The first record of a log. -/
structure Header where
  /-- The physical address of the log area, where it is known. -/
  address : UInt64
  /-- The number of bytes of the record, vendor information included. -/
  length : Nat
  /-- The record as it stands in the log. -/
  raw : Bytes
  /-- The register, one less than the number in the record. -/
  register : UInt32
  eventType : UInt32
  digestCount : UInt32
  /-- The digest lengths of the algorithms that the log uses. -/
  digestSizes : DigestTable
  deriving DecidableEq, Repr

/-- One measured event. -/
structure Event where
  /-- The register that the event was measured into, one less than the number in the record. -/
  register : UInt32
  eventType : UInt32
  digestCount : UInt32
  /-- One digest per algorithm, in the order of the record. -/
  digests : List Bytes
  /-- The algorithm of the last digest, zero if there is none. -/
  algorithm : UInt16
  /-- The announced number of bytes of `payload`. -/
  payloadSize : UInt32
  /-- What was measured. -/
  payload : Bytes
  /-- The number of bytes of the record. -/
  length : Nat
  /-- The record as it stands in the log. -/
  raw : Bytes
  deriving DecidableEq, Repr

end EventLog

/-- A header and the events after it. -/
structure EventLog where
  header : EventLog.Header
  events : List EventLog.Event
  deriving DecidableEq, Repr

namespace EventLog

/-- The log with the address of its log area filled in. -/
def withAddress (log : EventLog) (address : UInt64) : EventLog :=
  { log with header := { log.header with address } }

end EventLog

end Attestation
