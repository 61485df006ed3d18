import Attestation.Proofs.EventLog.Segmentation

/-!
# Decoding and laying out undo each other

* `decode_layOut` : a laid-out log is decoded to what was laid out, whatever stands behind its end;
* `Header.Spelled`, `Event.Spelled` : the bytes of a record are its fields in the order of the format;
* `decode_spelled` : the records of a decoded log are spelled.
-/

namespace Attestation.EventLog
open DigestTable (lastSize)

/-! ## From layouts to bytes and back -/

/-- **Decoding undoes laying out.** A header and events that can be written are decoded from their bytes, up to the end
of the log, and the table of the header holds the last size declared for each algorithm. -/
theorem decode_layOut {h : HeaderLayout} {es : List EventLayout} (hh : h.Fits)
    (hes : ∀ e ∈ es, e.Fits (lastSize h.declarations)) {tail : Bytes} (htail : Ended tail) :
    decode (layOut h es ++ tail) = .ok { header := h.read, events := es.map EventLayout.read } ∧
      ∀ algorithm, h.read.digestSizes.get? algorithm = lastSize h.declarations algorithm := by
  constructor
  · rw [decode_append hh hes, readEvents_ended _ htail]
    simp [Except.map]
  · intro algorithm
    rw [h.get?_read]

theorem decode_layOut_sample :
    sampleHeader.Fits ∧ (∀ e ∈ sampleEvents, e.Fits (lastSize sampleHeader.declarations)) ∧
      Ended (endBytes ++ [0x5A]) ∧
      decode sampleBytes = .ok { header := sampleHeader.read, events := sampleEvents.map EventLayout.read } ∧
      sampleHeader.read.digestSizes.get? 11 = some 2 := by
  have hh : sampleHeader.Fits := by decide
  have hes : ∀ e ∈ sampleEvents, e.Fits (lastSize sampleHeader.declarations) := by decide
  have htail : Ended (endBytes ++ [0x5A]) := .inr (List.prefix_append _ _)
  obtain ⟨hd, hsizes⟩ := decode_layOut hh hes htail
  exact ⟨hh, hes, htail, hd, hsizes 11⟩

/-! ## From bytes to fields and back -/

/-- The bytes of the header are its fields in the order of the format. -/
def Header.Spelled (h : Header) : Prop :=
  ∃ (fixed : Block fixedFields) (declarations : List (UInt16 × UInt16)) (vendor : Bytes),
    declarations.length < UInt32.size ∧ vendor.length < UInt8.size ∧
      (∀ algorithm, h.digestSizes.get? algorithm = lastSize declarations algorithm) ∧
      h.raw = le32 (h.register + 1) ++ le32 h.eventType ++ le32 h.digestCount ++ fixed.bytes ++
        le32 (UInt32.ofNat declarations.length) ++ declarations.flatMap (fun d => le16 d.1 ++ le16 d.2) ++
        Bytes.ofNatLE 1 vendor.length ++ vendor

/-- The bytes of the event are its fields in the order of the format, and its digests have the lengths `sizeOf`. -/
def Event.Spelled (sizeOf : UInt16 → Option UInt16) (e : Event) : Prop :=
  ∃ algorithms : List UInt16, algorithms.length = e.digestCount.toNat ∧ e.digests.length = e.digestCount.toNat ∧
    (∀ (i : Nat) (ha : i < algorithms.length) (hd : i < e.digests.length),
      (sizeOf algorithms[i]).map UInt16.toNat = some e.digests[i].length) ∧
    e.algorithm = algorithms.getLast?.getD 0 ∧ e.payloadSize.toNat = e.payload.length ∧
    e.raw = le32 (e.register + 1) ++ le32 e.eventType ++ le32 e.digestCount ++
      (algorithms.zip e.digests).flatMap (fun d => le16 d.1 ++ d.2) ++ le32 e.payloadSize ++ e.payload

theorem HeaderLayout.spelled_read {h : HeaderLayout} (hh : h.Sized) : h.read.Spelled := by
  refine ⟨h.fixed, h.declarations, h.vendor, hh.1, hh.2, ?_, ?_⟩
  · intro algorithm
    rw [h.get?_read]
  · simp [HeaderLayout.read, HeaderLayout.bytes]

theorem EventLayout.spelled_read {sizeOf : UInt16 → Option UInt16} {e : EventLayout} (he : e.Sized sizeOf) :
    e.read.Spelled sizeOf := by
  obtain ⟨hcount, hpayload, hdigests⟩ := he
  have hcount' : e.read.digestCount.toNat = e.digests.length := UInt32.toNat_ofNat_of_lt' hcount
  refine ⟨e.digests.map (·.1), ?_, ?_, ?_, ?_, ?_, ?_⟩
  · rw [hcount', List.length_map]
  · rw [hcount', EventLayout.read, List.length_map]
  · intro i ha hd
    have hi : i < e.digests.length := by simpa using ha
    simpa [EventLayout.read] using hdigests e.digests[i] (List.getElem_mem hi)
  · simp [EventLayout.read]
  · exact UInt32.toNat_ofNat_of_lt' hpayload
  · have hzip : (e.digests.map (·.1)).zip (e.digests.map (·.2)) = e.digests := by
      rw [← List.unzip_fst, ← List.unzip_snd, List.zip_unzip]
    simp [EventLayout.read, EventLayout.bytes, hzip]

theorem sub_one_ne_of_ne_endMarker {field : UInt32} (h : field ≠ endMarker) : field - 1 ≠ 0xFFFFFFFE := by
  intro heq
  apply h
  rw [← UInt32.sub_add_cancel field 1, heq]
  rfl

/-- **Laying out undoes decoding.** The bytes of a decoded log begin with its records, each record is spelled by its
fields, and no record is in the register that the end marker would name. -/
theorem decode_spelled {bs : Bytes} {log : EventLog} (hd : decode bs = .ok log) :
    log.body <+: bs ∧ log.header.eventType = noAction ∧ log.header.Spelled ∧ log.header.register ≠ 0xFFFFFFFE ∧
      ∀ e ∈ log.events, e.Spelled log.header.digestSizes.get? ∧ e.register ≠ 0xFFFFFFFE := by
  obtain ⟨h, es, tail, hh, hes, -, rfl, rfl⟩ := exists_layout_of_decode hd
  refine ⟨?_, hh.2.1, HeaderLayout.spelled_read hh.2.2, sub_one_ne_of_ne_endMarker hh.1, ?_⟩
  · rw [body_ofLayout]
    exact List.prefix_append _ _
  · intro e he
    obtain ⟨l, hl, rfl⟩ := List.mem_map.1 he
    rw [show (ofLayout h es).header.digestSizes.get? = lastSize h.declarations from h.get?_read]
    exact ⟨EventLayout.spelled_read (hes l hl).2, sub_one_ne_of_ne_endMarker (hes l hl).1⟩

theorem decode_spelled_sample :
    decode sampleBytes = .ok sampleLog ∧ sampleLog.header.Spelled ∧
      ∀ e ∈ sampleLog.events, e.Spelled sampleLog.header.digestSizes.get? ∧ e.register ≠ 0xFFFFFFFE := by
  obtain ⟨-, -, hheader, -, hevents⟩ := decode_spelled decode_sampleBytes
  exact ⟨decode_sampleBytes, hheader, hevents⟩

end Attestation.EventLog
