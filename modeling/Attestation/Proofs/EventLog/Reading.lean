import Attestation.Json.Reader
import Attestation.Proofs.DigestStyle
import Attestation.Proofs.DigestTable
import Attestation.Proofs.EventLog.Document

/-!
# Documents are read back

* `Datum.digest?` : the digest that a text writes in a style;
* `DigestTable.ofDatum?`, `Header.ofDatum?`, `Event.ofDatum?`, `ofDatum?` : what the values of a document say, each with
  its `ofDatum?_toDatum`;
* `ofDocument?` : the log that a document text says.
-/

namespace Attestation

/-! ## Numbers and digest tables -/

namespace Datum

/-- The digest that a text writes in a style. -/
def digest? (style : DigestStyle) : Datum → Option Bytes
  | .text s => style.read? s
  | _ => none

end Datum

namespace DigestTable

/-- The declaration that a member says: its name the algorithm, its value the length. -/
def declaration? (m : String × Datum) : Option (UInt16 × UInt16) := do
  let algorithm ← Text.Decimal.read? m.1.toList
  let size ← m.2.natural?
  return (UInt16.ofNat algorithm, UInt16.ofNat size)

def ofDatum? : Datum → Option DigestTable
  | .table members => (members.mapM declaration?).map ofList
  | _ => none

theorem declaration?_member (e : UInt16 × UInt16) : declaration? (toString e.1.toNat, .ofNat e.2.toNat) = some e := by
  have hname : Text.Decimal.read? (toString e.1.toNat).toList = some e.1.toNat := by
    rw [Nat.toString_eq_ofList_toDigits, String.toList_ofList, Text.Decimal.read?_eq_some_iff]
  have hsize : (Datum.ofNat e.2.toNat).natural? = some e.2.toNat := rfl
  simp only [declaration?, hname, hsize, Option.bind_eq_bind, Option.bind_some, Option.pure_def, UInt16.ofNat_toNat]

theorem ofDatum?_toDatum (t : DigestTable) : ofDatum? t.toDatum = some t := by
  rw [toDatum, ofDatum?, Datum.mapM_map_eq_some declaration? _ declaration?_member, List.map_id', Option.map_some,
    ofList_toList]

end DigestTable

namespace EventLog

/-! ## Header, events and log -/

def Header.ofDatum? (d : Datum) : Option Header := do
  let address ← d.number? "Address"
  let length ← d.number? "Length"
  let raw ← d.bytes? "HeaderData"
  let register ← d.number? "Rtmr"
  let eventType ← d.number? "Etype"
  let digestCount ← d.number? "DigestCount"
  let digestSizes ← d.member? "DigestSizes" >>= DigestTable.ofDatum?
  return { address := .ofNat address, length, raw, register := .ofNat register, eventType := .ofNat eventType,
           digestCount := .ofNat digestCount, digestSizes }

def Event.ofDatum? (style : DigestStyle) (d : Datum) : Option Event := do
  let register ← d.number? "Rtmr"
  let eventType ← d.number? "Etype"
  let digestCount ← d.number? "DigestCount"
  let digests ← d.items? "Digests" >>= List.mapM (Datum.digest? style)
  let raw ← d.bytes? "Data"
  let payload ← d.bytes? "Event"
  let length ← d.number? "Length"
  let payloadSize ← d.number? "EventSize"
  let algorithm ← d.number? "AlgorithmId"
  return { register := .ofNat register, eventType := .ofNat eventType, digestCount := .ofNat digestCount, digests,
           algorithm := .ofNat algorithm, payloadSize := .ofNat payloadSize, payload, length, raw }

def ofDatum? (style : DigestStyle) (d : Datum) : Option EventLog := do
  let header ← d.member? "Header" >>= Header.ofDatum?
  let events ← d.items? "EventLogs" >>= List.mapM (Event.ofDatum? style)
  return { header, events }

/-- The log that a document says. -/
def ofDocument? (style : DigestStyle) (text : String) : Option EventLog := Json.read? text >>= ofDatum? style

theorem Header.ofDatum?_toDatum (h : Header) : Header.ofDatum? h.toDatum = some h := by
  have haddress : h.toDatum.number? "Address" = some h.address.toNat := rfl
  have hlength : h.toDatum.number? "Length" = some h.length := rfl
  have hregister : h.toDatum.number? "Rtmr" = some h.register.toNat := rfl
  have htype : h.toDatum.number? "Etype" = some h.eventType.toNat := rfl
  have hcount : h.toDatum.number? "DigestCount" = some h.digestCount.toNat := rfl
  have hsizes : h.toDatum.member? "DigestSizes" = some h.digestSizes.toDatum := rfl
  simp only [Header.ofDatum?, haddress, hlength, h.bytes?_headerData, hregister, htype, hcount, hsizes,
    DigestTable.ofDatum?_toDatum, Option.bind_eq_bind, Option.bind_some, Option.pure_def, UInt64.ofNat_toNat,
    UInt32.ofNat_toNat]

theorem Event.ofDatum?_toDatum (style : DigestStyle) (e : Event) : Event.ofDatum? style (e.toDatum style) = some e := by
  have hregister : (e.toDatum style).number? "Rtmr" = some e.register.toNat := rfl
  have htype : (e.toDatum style).number? "Etype" = some e.eventType.toNat := rfl
  have hcount : (e.toDatum style).number? "DigestCount" = some e.digestCount.toNat := rfl
  have hitems : (e.toDatum style).items? "Digests" = some (e.digests.map fun d => .text (style.render d)) := rfl
  have hdigests : (e.digests.map fun d => .text (style.render d)).mapM (Datum.digest? style) = some e.digests := by
    rw [Datum.mapM_map_eq_some (Datum.digest? style) _ (DigestStyle.read?_render style), List.map_id']
  have hpayload : (e.toDatum style).bytes? "Event" = some e.payload := Datum.bytes?_of_member? rfl
  have hlength : (e.toDatum style).number? "Length" = some e.length := rfl
  have hsize : (e.toDatum style).number? "EventSize" = some e.payloadSize.toNat := rfl
  have halgorithm : (e.toDatum style).number? "AlgorithmId" = some e.algorithm.toNat := rfl
  simp only [Event.ofDatum?, hregister, htype, hcount, hitems, hdigests, e.bytes?_data style, hpayload, hlength, hsize,
    halgorithm, Option.bind_eq_bind, Option.bind_some, Option.pure_def, UInt32.ofNat_toNat, UInt16.ofNat_toNat]

/-- **The value of a document says its log**, every field of it. -/
theorem ofDatum?_toDatum (style : DigestStyle) (log : EventLog) : ofDatum? style (log.toDatum style) = some log := by
  have hevents : (log.events.map (Event.toDatum style)).mapM (Event.ofDatum? style) = some log.events := by
    rw [Datum.mapM_map_eq_some (Event.ofDatum? style) _ (Event.ofDatum?_toDatum style), List.map_id']
  simp only [ofDatum?, member?_header, items?_eventLogs, Header.ofDatum?_toDatum, hevents, Option.bind_eq_bind,
    Option.bind_some, Option.pure_def]

end EventLog

end Attestation
