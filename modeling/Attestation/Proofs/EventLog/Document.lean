import Attestation.EventLog.Document
import Attestation.EventLog.Window
import Attestation.Proofs.EventLog.Segmentation
import Attestation.Proofs.Json.Members

/-!
# What a document shows of a log

* `window_eq_ok`, `windowStart` : what a window holds, and the event that it begins with;
* `raw_take_drop` : the records of a run of events are one piece of the bytes that the log was decoded from;
* `Shows` : a document shows an address, a header and a run of records byte for byte, as `shows_of_window` proves of
  each window.
-/

namespace Attestation

namespace EventLog

/-! ## Members -/

theorem member?_header (style : DigestStyle) (log : EventLog) :
    (log.toDatum style).member? "Header" = some log.header.toDatum := rfl

theorem member?_eventLogs (style : DigestStyle) (log : EventLog) :
    (log.toDatum style).member? "EventLogs" = some (.list (log.events.map (Event.toDatum style))) := rfl

theorem items?_eventLogs (style : DigestStyle) (log : EventLog) :
    (log.toDatum style).items? "EventLogs" = some (log.events.map (Event.toDatum style)) := rfl

theorem Header.bytes?_headerData (h : Header) : h.toDatum.bytes? "HeaderData" = some h.raw :=
  Datum.bytes?_of_member? rfl

theorem Event.bytes?_data (style : DigestStyle) (e : Event) : (e.toDatum style).bytes? "Data" = some e.raw :=
  Datum.bytes?_of_member? rfl

/-! ## Windows -/

/-- The number of the event that a window begins with. -/
def windowStart (start count : Nat) : Nat := if count = 0 then 0 else start

theorem window_eq_ok {log w : EventLog} {start count : Nat} (h : log.window start count = .ok w) :
    w.header = log.header ∧ w.events = (log.events.drop (windowStart start count)).take w.events.length ∧
      (count = 0 → w.events = log.events) := by
  simp only [window] at h
  unfold windowStart
  split at h
  · next h0 =>
    split at h
    · cases h
      rw [if_pos h0]
      exact ⟨rfl, by simp, fun _ => rfl⟩
    · cases h
  · next h0 =>
    split at h
    · cases h
      rw [if_neg h0]
      exact ⟨rfl, by simp, fun hc => absurd hc h0⟩
    · cases h

/-- The records of a run of events are one piece of the bytes that the log was decoded from. -/
theorem raw_take_drop {bs : Bytes} {log : EventLog} (hd : decode bs = .ok log) (i n : Nat) :
    ((log.events.drop i).take n).flatMap Event.raw =
        (bs.drop (log.boundary i)).take (((log.events.drop i).take n).flatMap Event.raw).length := by
  obtain ⟨h, es, tail, -, -, -, rfl, rfl⟩ := exists_layout_of_decode hd
  have hraw : (((ofLayout h es).events.drop i).take n).flatMap Event.raw =
      ((es.drop i).take n).flatMap EventLayout.bytes := by
    rw [ofLayout, ← List.map_drop, ← List.map_take, List.flatMap_map]
    rfl
  rw [hraw, boundary_ofLayout, layOut_take_drop h es i, List.append_assoc, List.drop_left]
  have hsplit : (es.drop i).flatMap EventLayout.bytes = ((es.drop i).take n).flatMap EventLayout.bytes ++
      ((es.drop i).drop n).flatMap EventLayout.bytes := by
    rw [← List.flatMap_append, List.take_append_drop]
  rw [hsplit, List.append_assoc, List.take_left]

/-- A log ends behind its last record. -/
theorem ended_drop {bs : Bytes} {log : EventLog} (hd : decode bs = .ok log) :
    Ended (bs.drop (log.header.length + (log.events.flatMap Event.raw).length)) := by
  obtain ⟨h, es, tail, -, -, htail, rfl, rfl⟩ := exists_layout_of_decode hd
  have hlength : (ofLayout h es).header.length + ((ofLayout h es).events.flatMap Event.raw).length =
      (layOut h es).length := by
    rw [← body_ofLayout, body, List.length_append]
    rfl
  rw [hlength, List.drop_left]
  exact htail

theorem boundary_windowStart (log : EventLog) (start count : Nat) :
    log.boundary (windowStart start count) = if count = 0 then log.header.length else log.boundary start := by
  rw [windowStart]
  split
  · rw [boundary, List.take_zero, List.map_nil, List.sum_nil, Nat.add_zero]
  · rfl

/-- The header is the first piece of the bytes that the log was decoded from. -/
theorem header_raw_eq {bs : Bytes} {log : EventLog} (hd : decode bs = .ok log) :
    log.header.raw = bs.take log.header.length ∧ log.header.length ≤ bs.length := by
  obtain ⟨h, es, tail, -, -, -, rfl, rfl⟩ := exists_layout_of_decode hd
  have hheader : (ofLayout h es).header.length = h.bytes.length := rfl
  rw [hheader, layOut, List.append_assoc, List.take_left]
  exact ⟨rfl, by simp⟩

/-! ## Documents -/

/-- A document shows an address, the first `length` bytes of a log as its header, and the pieces of the log that follow
each other from the offset `first` on as its events. -/
structure Shows (document : Datum) (address : Nat) (bs : Bytes) (length first : Nat) (pieces : List Bytes) : Prop where
  header : ∃ header, document.member? "Header" = some header ∧ header.member? "Address" = some (.ofNat address) ∧
    header.member? "Length" = some (.ofNat length) ∧ header.bytes? "HeaderData" = some (bs.take length)
  header_le : length ≤ bs.length
  events : ∃ events, document.member? "EventLogs" = some (.list events) ∧
    events.map (fun event => event.bytes? "Data") = pieces.map some
  contiguous : pieces.flatten = (bs.drop first).take pieces.flatten.length

/-- The document of a window shows the bytes that the log was decoded from. -/
theorem shows_of_window {bs : Bytes} {log w : EventLog} {address : UInt64} {start count : Nat}
    (hd : decode bs = .ok log) (hw : (log.withAddress address).window start count = .ok w) (style : DigestStyle) :
    Shows (w.toDatum style) address.toNat bs log.header.length (log.boundary (windowStart start count))
      (w.events.map Event.raw) := by
  obtain ⟨hheader, hevents, -⟩ := window_eq_ok hw
  obtain ⟨hraw, hle⟩ := header_raw_eq hd
  refine ⟨⟨w.header.toDatum, member?_header style w, ?_, ?_, ?_⟩, hle, ⟨_, member?_eventLogs style w, ?_⟩, ?_⟩
  · rw [hheader]
    rfl
  · rw [hheader]
    rfl
  · rw [Header.bytes?_headerData, hheader, ← hraw]
    rfl
  · rw [List.map_map, List.map_map]
    exact List.map_congr_left fun e _ => Event.bytes?_data style e
  · rw [← List.flatMap_def, hevents]
    exact raw_take_drop hd (windowStart start count) w.events.length

/-- Behind the events of a window of all events is the end of the log. -/
theorem ended_of_window {bs : Bytes} {log w : EventLog} {address : UInt64} {start : Nat}
    (hd : decode bs = .ok log) (hw : (log.withAddress address).window start 0 = .ok w) :
    Ended (bs.drop (log.header.length + (w.events.map Event.raw).flatten.length)) := by
  obtain ⟨-, -, hall⟩ := window_eq_ok hw
  rw [← List.flatMap_def, hall rfl]
  exact ended_drop hd

end EventLog

end Attestation
