import Attestation.Proofs.EventLog.Document

/-!
# Selections of a log

Any events of a decoded log, in any order and with repetitions, make a log again with its header: an event is read
from its record alone, whatever stands before it, and of the header it needs only the digest table.

* `decode_records` : the records of such a selection, behind that of the header, are decoded to the selection;
* `Datum.records?` : the records that a document shows, rejoined;
* `decode_selection` : both together, for any selection and for the documents of all windows.
-/

namespace Attestation

namespace Datum

/-- The records that the document of a log shows, one after the other: what the strings `HeaderData` and `Data` write
in base64. -/
def records? (document : Datum) : Option Bytes := do
  let header ← document.member? "Header"
  let headerData ← header.bytes? "HeaderData"
  let events ← document.items? "EventLogs"
  let data ← events.mapM fun event => event.bytes? "Data"
  return headerData ++ data.flatten

end Datum

namespace EventLog
open DigestTable (lastSize)

/-! ## Records of some events -/

/-- Events that are all events of a log are read from layouts that are all layouts of that log. -/
theorem exists_layouts_of_subset {h : HeaderLayout} {es : List EventLayout} {picked : List Event}
    (hpicked : ∀ e ∈ picked, e ∈ (ofLayout h es).events) :
    ∃ chosen : List EventLayout, (∀ l ∈ chosen, l ∈ es) ∧ picked = chosen.map EventLayout.read := by
  induction picked with
  | nil => exact ⟨[], by simp, rfl⟩
  | cons e picked ih =>
    obtain ⟨chosen, hchosen, rfl⟩ := ih fun x hx => hpicked x (List.mem_cons_of_mem _ hx)
    obtain ⟨l, hl, rfl⟩ := List.mem_map.1 (hpicked e List.mem_cons_self)
    refine ⟨l :: chosen, ?_, rfl⟩
    intro x hx
    rcases List.mem_cons.1 hx with rfl | hx
    · exact hl
    · exact hchosen x hx

/-- The records of a selection, behind that of the header, are decoded to the selection. -/
theorem decode_records {bs : Bytes} {log : EventLog} (hd : decode bs = .ok log) {picked : List Event}
    (hpicked : ∀ e ∈ picked, e ∈ log.events) {tail : Bytes} (htail : Ended tail) :
    decode (log.header.raw ++ picked.flatMap Event.raw ++ tail) = .ok { log with events := picked } := by
  obtain ⟨h, es, _, hh, hes, -, -, rfl⟩ := exists_layout_of_decode hd
  obtain ⟨chosen, hchosen, rfl⟩ := exists_layouts_of_subset hpicked
  have hfits : ∀ l ∈ chosen, l.Fits (lastSize h.declarations) := fun l hl => hes l (hchosen l hl)
  have hbytes : (ofLayout h es).header.raw ++ (chosen.map EventLayout.read).flatMap Event.raw = layOut h chosen :=
    body_ofLayout h chosen
  rw [hbytes, decode_append hh hfits, readEvents_ended _ htail]
  simp [Except.map, ofLayout]

/-! ## Records of a document -/

theorem records?_toDatum (style : DigestStyle) (log : EventLog) : (log.toDatum style).records? = some log.body := by
  have hdata : (log.events.map (Event.toDatum style)).mapM (fun event => event.bytes? "Data") =
      some (log.events.map Event.raw) :=
    Datum.mapM_map_eq_some (fun event => event.bytes? "Data") (Event.toDatum style) (Event.bytes?_data style) _
  simp only [Datum.records?, member?_header, items?_eventLogs, Header.bytes?_headerData, hdata, Option.bind_eq_bind,
    Option.bind_some, Option.pure_def]
  rw [body, List.flatMap_def]

theorem mem_of_window {log w : EventLog} {start count : Nat} (hw : log.window start count = .ok w) :
    ∀ e ∈ w.events, e ∈ log.events := by
  intro e he
  rw [(window_eq_ok hw).2.1] at he
  exact List.mem_of_mem_drop (List.mem_of_mem_take he)

/-- **Any selection of a log is a log.** The record of the header and the records of any events of a decoded log, in any
order and with repetitions, are decoded to that header and exactly those events. So are the records that the document of
a window shows. -/
theorem decode_selection {bs : Bytes} {log : EventLog} (hd : decode bs = .ok log) {tail : Bytes} (htail : Ended tail) :
    (∀ picked : List Event, (∀ e ∈ picked, e ∈ log.events) →
      decode (log.header.raw ++ picked.flatMap Event.raw ++ tail) = .ok { log with events := picked }) ∧
    ∀ (address : UInt64) (start count : Nat) (w : EventLog) (style : DigestStyle),
      (log.withAddress address).window start count = .ok w →
        ∃ records, (w.toDatum style).records? = some records ∧
          decode (records ++ tail) = .ok { log with events := w.events } := by
  constructor
  · intro picked hpicked
    exact decode_records hd hpicked htail
  · intro address start count w style hw
    refine ⟨w.body, records?_toDatum style w, ?_⟩
    have hraw : w.header.raw = log.header.raw := by
      rw [(window_eq_ok hw).1]
      rfl
    have hevents : ∀ e ∈ w.events, e ∈ (log.withAddress address).events := mem_of_window hw
    rw [body, hraw]
    exact decode_records hd hevents htail

/-- The two events of the sample in the other order and the first of them again, with a marker and a byte behind. -/
theorem decode_selection_sample :
    decode sampleBytes = .ok sampleLog ∧ Ended (endBytes ++ [0x5A]) ∧
      (∀ e ∈ sampleLog.events.reverse ++ sampleLog.events.take 1, e ∈ sampleLog.events) ∧
      decode (sampleLog.header.raw ++ (sampleLog.events.reverse ++ sampleLog.events.take 1).flatMap Event.raw ++
        (endBytes ++ [0x5A])) =
          .ok { sampleLog with events := sampleLog.events.reverse ++ sampleLog.events.take 1 } ∧
      ∃ w records, (sampleLog.withAddress 7).window 0 1 = .ok w ∧ (w.toDatum .hex).records? = some records ∧
        decode (records ++ (endBytes ++ [0x5A])) = .ok { sampleLog with events := w.events } := by
  have htail : Ended (endBytes ++ [0x5A]) := .inr (List.prefix_append _ _)
  have hpicked : ∀ e ∈ sampleLog.events.reverse ++ sampleLog.events.take 1, e ∈ sampleLog.events := by
    intro e he
    rcases List.mem_append.1 he with he | he
    · exact List.mem_reverse.1 he
    · exact List.mem_of_mem_take he
  obtain ⟨hselection, hdocuments⟩ := decode_selection decode_sampleBytes htail
  have hw : (sampleLog.withAddress 7).window 0 1 =
      .ok { sampleLog.withAddress 7 with events := sampleLog.events.take 1 } := rfl
  obtain ⟨records, hrecords, hagain⟩ := hdocuments 7 0 1 _ .hex hw
  exact ⟨decode_sampleBytes, htail, hpicked, hselection _ hpicked, _, records, hw, hrecords, hagain⟩

end EventLog

end Attestation
