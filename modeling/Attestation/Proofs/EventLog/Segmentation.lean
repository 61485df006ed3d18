import Attestation.Proofs.EventLog.Scan

/-!
# How a log is cut into records

* `body log` : the bytes of the header and the events, one after the other;
* `boundary log j` : the offset behind the first `j` events;
* `decode_segments` : the records of a decoded log cut its bytes into pieces that leave nothing out up to its end.
-/

namespace Attestation.EventLog
open DigestTable (lastSize)

/-- The bytes of the header and of the events. -/
def body (log : EventLog) : Bytes := log.header.raw ++ log.events.flatMap Event.raw

/-- The number of bytes of the header and the first `j` events. -/
def boundary (log : EventLog) (j : Nat) : Nat := log.header.length + ((log.events.take j).map Event.length).sum

/-! ## Laid-out records -/

theorem body_ofLayout (h : HeaderLayout) (es : List EventLayout) : (ofLayout h es).body = layOut h es := by
  rw [body, ofLayout, layOut, List.flatMap_map]
  rfl

theorem boundary_ofLayout (h : HeaderLayout) (es : List EventLayout) (j : Nat) :
    (ofLayout h es).boundary j = (layOut h (es.take j)).length := by
  rw [boundary, ofLayout, layOut, List.length_append, List.length_flatMap, ← List.map_take, List.map_map]
  rfl

theorem layOut_take_drop (h : HeaderLayout) (es : List EventLayout) (j : Nat) :
    layOut h es = layOut h (es.take j) ++ (es.drop j).flatMap EventLayout.bytes := by
  rw [layOut, layOut, List.append_assoc, ← List.flatMap_append, List.take_append_drop]

theorem le32_inj {m n : UInt32} : le32 m = le32 n ↔ m = n := by
  constructor
  · intro h
    have hnat := congrArg Bytes.toNatLE h
    rw [le32, le32, Bytes.toNatLE_ofNatLE m.toNat_lt, Bytes.toNatLE_ofNatLE n.toNat_lt] at hnat
    exact UInt32.toNat_inj.1 hnat
  · rintro rfl
    rfl

theorem endBytes_prefix_iff (n : UInt32) (s : Bytes) : endBytes <+: le32 n ++ s ↔ n = endMarker := by
  rw [← le32_endMarker]
  constructor
  · intro hp
    obtain ⟨t, ht⟩ := hp
    exact (le32_inj.1 (List.append_inj_left ht (by simp))).symm
  · rintro rfl
    exact ⟨s, rfl⟩

theorem HeaderLayout.endBytes_not_prefix {h : HeaderLayout} (hh : h.Fits) : ¬ endBytes <+: h.bytes := by
  obtain ⟨s, hs⟩ := h.bytes_eq
  rw [hs, endBytes_prefix_iff]
  exact hh.1

theorem EventLayout.endBytes_not_prefix {sizeOf : UInt16 → Option UInt16} {e : EventLayout} (he : e.Fits sizeOf) :
    ¬ endBytes <+: e.bytes := by
  obtain ⟨s, hs⟩ := e.bytes_eq
  rw [hs, endBytes_prefix_iff]
  exact he.1

/-! ## A log -/

/-- A header that declares one algorithm twice and another with empty digests. -/
def sampleHeader : HeaderLayout :=
  { registerField := 1, eventType := noAction, digestCount := 5, fixed := ⟨List.replicate 44 0xAB, rfl⟩,
    declarations := [(11, 32), (12, 0), (11, 2)], vendor := [7] }

/-- An event in register zero, of the type of a header and with marker bytes in it, before an empty one. -/
def sampleEvents : List EventLayout :=
  [{ registerField := 0, eventType := noAction, digests := [(11, [0xFF, 0xFF]), (12, [])],
     payload := [0xFF, 0xFF, 0xFF, 0xFF, 9] },
   { registerField := 4, eventType := 1, digests := [], payload := [] }]

/-- A log with something behind its end marker. -/
def sampleBytes : Bytes := layOut sampleHeader sampleEvents ++ (endBytes ++ [0x5A])

/-- The records of that log. -/
def sampleLog : EventLog := ofLayout sampleHeader sampleEvents

theorem decode_sampleBytes : decode sampleBytes = .ok sampleLog := by cbv

/-! ## Decoded logs -/

/-- **Lossless segmentation.** The records of a decoded log follow each other without a gap from the first byte on, none
of them begins like the end marker, and behind them is the end of the log. -/
theorem decode_segments {bs : Bytes} {log : EventLog} (hd : decode bs = .ok log) :
    (∃ tail, bs = log.body ++ tail ∧ Ended tail) ∧
      log.header.length = log.header.raw.length ∧ (∀ e ∈ log.events, e.length = e.raw.length) ∧
      ¬ endBytes <+: log.header.raw ∧ (∀ e ∈ log.events, ¬ endBytes <+: e.raw) ∧
      ∀ (j : Nat) (hj : j < log.events.length),
        log.events[j].raw = (bs.drop (log.boundary j)).take log.events[j].length := by
  obtain ⟨h, es, tail, hh, hes, htail, rfl, rfl⟩ := exists_layout_of_decode hd
  refine ⟨⟨tail, ?_, htail⟩, rfl, ?_, HeaderLayout.endBytes_not_prefix hh, ?_, ?_⟩
  · rw [body_ofLayout]
  · intro e he
    obtain ⟨l, -, rfl⟩ := List.mem_map.1 he
    rfl
  · intro e he
    obtain ⟨l, hl, rfl⟩ := List.mem_map.1 he
    exact EventLayout.endBytes_not_prefix (hes l hl)
  · intro j hj
    have hj' : j < es.length := by simpa [ofLayout] using hj
    rw [boundary_ofLayout, layOut_take_drop h es j, List.append_assoc, List.drop_left,
      List.drop_eq_getElem_cons hj', List.flatMap_cons, List.append_assoc]
    simp [ofLayout, EventLayout.read]

theorem decode_segments_sample :
    decode sampleBytes = .ok sampleLog ∧ (∃ tail, sampleBytes = sampleLog.body ++ tail ∧ Ended tail) ∧
      ∀ (j : Nat) (hj : j < sampleLog.events.length),
        sampleLog.events[j].raw = (sampleBytes.drop (sampleLog.boundary j)).take sampleLog.events[j].length := by
  obtain ⟨hbody, -, -, -, -, hslice⟩ := decode_segments decode_sampleBytes
  exact ⟨decode_sampleBytes, hbody, hslice⟩

end Attestation.EventLog
