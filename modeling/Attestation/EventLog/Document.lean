import Attestation.EventLog.Basic
import Attestation.EventLog.DigestStyle
import Attestation.Json.Printer
import Attestation.Text.Base64

/-!
# Event log documents

The document of a log is a JSON table with its header and the list of its events. Records and payloads stand in
base64, digests in the chosen style, digest lengths under the decimal ids of their algorithms in ascending order.
-/

namespace Attestation

def DigestTable.toDatum (t : DigestTable) : Datum :=
  .table (t.toList.map fun e => (toString e.1.toNat, .ofNat e.2.toNat))

def DigestTable.text (t : DigestTable) : String := Json.compactText t.toDatum

namespace EventLog

def Header.toDatum (h : Header) : Datum :=
  .table [
    ("Address", .ofNat h.address.toNat),
    ("Length", .ofNat h.length),
    ("HeaderData", .text (Text.Base64.encode h.raw)),
    ("Rtmr", .ofNat h.register.toNat),
    ("Etype", .ofNat h.eventType.toNat),
    ("DigestCount", .ofNat h.digestCount.toNat),
    ("DigestSizes", h.digestSizes.toDatum)]

def Event.toDatum (style : DigestStyle) (e : Event) : Datum :=
  .table [
    ("Rtmr", .ofNat e.register.toNat),
    ("Etype", .ofNat e.eventType.toNat),
    ("DigestCount", .ofNat e.digestCount.toNat),
    ("Digests", .list (e.digests.map fun d => .text (style.render d))),
    ("Data", .text (Text.Base64.encode e.raw)),
    ("Event", .text (Text.Base64.encode e.payload)),
    ("Length", .ofNat e.length),
    ("EventSize", .ofNat e.payloadSize.toNat),
    ("AlgorithmId", .ofNat e.algorithm.toNat)]

def toDatum (style : DigestStyle) (log : EventLog) : Datum :=
  .table [("Header", log.header.toDatum), ("EventLogs", .list (log.events.map (Event.toDatum style)))]

def document (style : DigestStyle) (log : EventLog) : String := Json.compactText (log.toDatum style)

end EventLog

end Attestation
