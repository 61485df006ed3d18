import Attestation.Proofs.EventLog.Segmentation
import Attestation.Proofs.EventLog.Sequential

/-!
# Truncated logs

* `readEvents_cut`, `decode_cut` : an event, or a header, that is cut off anywhere inside is refused there;
* `decode_truncated` : what the decoder makes of a log that is cut off at each of its offsets.
-/

namespace Attestation.EventLog
open DigestTable (lastSize get?_ofList)

/-! ## A number that is cut off -/

theorem word32_cut {c : Cursor} {k : Nat} (hk : k < 4) (hlen : k ≤ c.rest.length) :
    word32 (c.cut k) = .error (.truncatedRecord c.offset 4 (c.offset + k)) := by
  exact bind_of_error (take_cut hk hlen) _

theorem word32_cut_of_rest {c : Cursor} {n : UInt32} {rest : Bytes} (h : c.rest = le32 n ++ rest) {k : Nat}
    (hk : 4 ≤ k) : word32 (c.cut k) = .ok (n, Cursor.cut ⟨c.offset + 4, rest⟩ (k - 4)) := by
  have hcut : (c.cut k).rest = le32 n ++ rest.take (k - 4) := by
    rw [Cursor.cut, h, List.take_append, List.take_of_length_le (by simpa using hk), length_le32]
  rw [word32_of_rest hcut]
  rfl

theorem not_isEmpty_cut {c : Cursor} {k : Nat} (hk : 0 < k) (hlen : k ≤ c.rest.length) :
    ¬ (c.cut k).rest.isEmpty = true := by
  rw [List.isEmpty_iff, ← List.length_eq_zero_iff, Cursor.cut, List.length_take]
  omega

/-! ## A record that is cut off -/

theorem readEvents_cut_field (sizes : DigestTable) {c : Cursor} {k : Nat} (h0 : 0 < k) (h4 : k < 4)
    (hlen : k ≤ c.rest.length) :
    readEvents sizes (c.cut k) = .error (.truncatedRecord c.offset 4 (c.offset + k)) := by
  rw [readEvents, readEventsOnto_eq, if_neg (not_isEmpty_cut h0 hlen), word32_cut h4 hlen]

theorem readEvents_cut (sizes : DigestTable) {c : Cursor} {e : EventLayout} (he : e.Fits sizes.get?) {tail : Bytes}
    (h : c.rest = e.bytes ++ tail) {k : Nat} (h0 : 0 < k) (hk : k < e.bytes.length) :
    Truncated (readEvents sizes (c.cut k)) c.offset (c.offset + k) := by
  have hlen : k ≤ c.rest.length := by
    rw [h, List.length_append]
    omega
  by_cases h4 : k < 4
  · exact ⟨c.offset, 4, readEvents_cut_field sizes h0 h4 hlen, by omega, by omega, by omega⟩
  · obtain ⟨s, hs⟩ := e.bytes_eq
    have hfield : c.rest = le32 e.registerField ++ (s ++ tail) := by rw [h, hs, List.append_assoc]
    rw [readEvents, readEventsOnto_eq, if_neg (not_isEmpty_cut h0 hlen), word32_cut_of_rest hfield (by omega)]
    simp only [if_neg he.1]
    have hread := (parses_readEvent sizes).of_rest ⟨e, he.2, rfl, rfl⟩ h
    obtain ⟨offset, needed, herror, hbounds⟩ := (sequential_readEvent sizes).cut hread (k := k) (by simpa using hk)
    rw [herror]
    exact ⟨offset, needed, rfl, hbounds⟩

theorem checkStart_cut {h : HeaderLayout} (hh : h.Fits) {c : Cursor} {tail : Bytes} (hrest : c.rest = h.bytes ++ tail)
    {k : Nat} (h0 : 0 < k) (hlen : k ≤ c.rest.length) :
    Truncated (checkStart (c.cut k)) c.offset (c.offset + k) ∨ checkStart (c.cut k) = .ok () := by
  rw [checkStart_eq, if_neg (not_isEmpty_cut h0 hlen)]
  by_cases h4 : k < 4
  · -- within the register
    rw [word32_cut h4 hlen]
    exact .inl ⟨c.offset, 4, rfl, by omega, by omega, by omega⟩
  · obtain ⟨s, hs⟩ := h.bytes_eq
    have hfield : c.rest = le32 h.registerField ++ (le32 h.eventType ++ (s ++ tail)) := by
      rw [hrest, hs, List.append_assoc, List.append_assoc]
    rw [word32_cut_of_rest hfield (by omega)]
    simp only [if_neg hh.1]
    by_cases h8 : k - 4 < 4
    · -- within the type
      have hlen4 : k - 4 ≤ (le32 h.eventType ++ (s ++ tail)).length := by
        rw [hfield, List.length_append, length_le32] at hlen
        omega
      rw [word32_cut h8 hlen4]
      have hend : c.offset + 4 + (k - 4) = c.offset + k := by omega
      rw [hend]
      exact .inl ⟨c.offset + 4, 4, rfl, by omega, by omega, by omega⟩
    · rw [word32_cut_of_rest rfl (by omega)]
      exact .inr (if_pos hh.2.1)

theorem decode_cut {h : HeaderLayout} (hh : h.Fits) (tail : Bytes) {k : Nat} (h0 : 0 < k) (hk : k < h.bytes.length) :
    Truncated (decode ((h.bytes ++ tail).take k)) 0 k := by
  obtain ⟨c, hc⟩ : ∃ c, c = Cursor.start (h.bytes ++ tail) := ⟨_, rfl⟩
  have hrest : c.rest = h.bytes ++ tail := by rw [hc]; rfl
  have hoffset : c.offset = 0 := by rw [hc]; rfl
  have hstart : Cursor.start ((h.bytes ++ tail).take k) = c.cut k := by rw [hc]; rfl
  have hlen : k ≤ c.rest.length := by
    rw [hrest, List.length_append]
    omega
  have hcheck := checkStart_cut hh hrest h0 hlen
  have hread := sequential_readHeader.cut (parses_readHeader.of_rest ⟨h, hh.2.2, rfl, rfl⟩ hrest)
    (k := k) (by simpa using hk)
  rw [hoffset, Nat.zero_add] at hcheck hread
  rw [decode_eq, hstart]
  rcases hcheck with ⟨offset, needed, herror, hbounds⟩ | hok
  · rw [herror]
    exact ⟨offset, needed, rfl, hbounds⟩
  · obtain ⟨offset, needed, herror, hbounds⟩ := hread
    rw [hok, herror]
    exact ⟨offset, needed, rfl, hbounds⟩

/-! ## A log that is cut off -/

/-- The number of bytes of the header and of all events. -/
def extent (log : EventLog) : Nat := log.header.length + (log.events.map Event.length).sum

theorem boundary_length (log : EventLog) : log.boundary log.events.length = log.extent := by
  rw [boundary, List.take_length, extent]

theorem boundary_mono (log : EventLog) {i j : Nat} (hij : i ≤ j) : log.boundary i ≤ log.boundary j := by
  obtain ⟨d, rfl⟩ := Nat.exists_eq_add_of_le hij
  rw [boundary, boundary, List.take_add, List.map_append, List.sum_append]
  omega

theorem boundary_succ (log : EventLog) {j : Nat} (hj : j < log.events.length) :
    log.boundary (j + 1) = log.boundary j + log.events[j].length := by
  rw [boundary, boundary, List.take_succ_eq_append_getElem hj, List.map_append, List.sum_append, Nat.add_assoc]
  simp

/-- An offset in a list of pieces is between two of them or inside one. -/
theorem exists_piece {α : Type} (w : α → Bytes) (xs : List α) {k : Nat} (hk : k ≤ (xs.flatMap w).length) :
    ∃ j m, k = ((xs.take j).flatMap w).length + m ∧
      (m = 0 ∧ j ≤ xs.length ∨ ∃ hj : j < xs.length, 0 < m ∧ m < (w xs[j]).length) := by
  induction xs generalizing k with
  | nil =>
    rw [List.flatMap_nil, List.length_nil] at hk
    exact ⟨0, 0, by simpa using hk, .inl ⟨rfl, Nat.le_refl _⟩⟩
  | cons x xs ih =>
    rw [List.flatMap_cons, List.length_append] at hk
    by_cases hx : k < (w x).length
    · refine ⟨0, k, by simp, ?_⟩
      by_cases h0 : k = 0
      · exact .inl ⟨h0, Nat.zero_le _⟩
      · exact .inr ⟨by simp, by omega, hx⟩
    · obtain ⟨d, rfl⟩ := Nat.exists_eq_add_of_le (Nat.not_lt.1 hx)
      obtain ⟨j, m, rfl, hjm⟩ := ih (k := d) (by omega)
      refine ⟨j + 1, m, ?_, by simpa using hjm⟩
      rw [List.take_succ_cons, List.flatMap_cons, List.length_append, Nat.add_assoc]

theorem decode_take_boundary {h : HeaderLayout} {es : List EventLayout} (hh : h.Fits)
    (hes : ∀ e ∈ es, e.Fits (lastSize h.declarations)) (tail : Bytes) (j : Nat) :
    decode ((layOut h es ++ tail).take ((ofLayout h es).boundary j)) =
      .ok { ofLayout h es with events := (ofLayout h es).events.take j } := by
  rw [boundary_ofLayout, layOut_take_drop h es j, List.append_assoc, List.take_left]
  have hes' : ∀ e ∈ es.take j, e.Fits (lastSize h.declarations) := fun e he => hes e (List.mem_of_mem_take he)
  rw [← List.append_nil (layOut h (es.take j)), decode_append hh hes', readEvents_ended _ (.inl rfl)]
  simp [Except.map, ofLayout, List.map_take]

theorem decode_take_inside {h : HeaderLayout} {es : List EventLayout} (hh : h.Fits)
    (hes : ∀ e ∈ es, e.Fits (lastSize h.declarations)) (tail : Bytes) {j m : Nat} (hj : j < es.length) (h0 : 0 < m)
    (hm : m < es[j].bytes.length) :
    Truncated (decode ((layOut h es ++ tail).take ((ofLayout h es).boundary j + m)))
      ((ofLayout h es).boundary j) ((ofLayout h es).boundary j + m) := by
  have hevent : es[j].Fits (DigestTable.ofList h.declarations).get? := by
    rw [get?_ofList]
    exact hes _ (List.getElem_mem hj)
  have hcut : (layOut h es ++ tail).take ((ofLayout h es).boundary j + m) =
      layOut h (es.take j) ++ es[j].bytes.take m := by
    rw [boundary_ofLayout, layOut_take_drop h es j, List.drop_eq_getElem_cons hj, List.flatMap_cons,
      List.append_assoc, List.append_assoc, List.take_length_add_append,
      List.take_append_of_le_length (Nat.le_of_lt hm)]
  rw [hcut, decode_append hh (fun e he => hes e (List.mem_of_mem_take he)), boundary_ofLayout]
  have hread := readEvents_cut (.ofList h.declarations) (c := ⟨(layOut h (es.take j)).length, es[j].bytes⟩) hevent
    (List.append_nil _).symm h0 hm
  exact hread.map _

theorem extent_ofLayout (h : HeaderLayout) (es : List EventLayout) : (ofLayout h es).extent = (layOut h es).length := by
  rw [← boundary_length, boundary_ofLayout]
  simp [ofLayout]

/-- A log that is cut off inside a record is refused behind the last boundary `o` before the cut. -/
theorem decode_take_between {h : HeaderLayout} {es : List EventLayout} (hh : h.Fits)
    (hes : ∀ e ∈ es, e.Fits (lastSize h.declarations)) (tail : Bytes) {k : Nat} (hk : k ≤ (ofLayout h es).extent)
    (h0 : k ≠ 0) (hne : ∀ j ≤ es.length, k ≠ (ofLayout h es).boundary j) :
    ∃ o, Truncated (decode ((layOut h es ++ tail).take k)) o k ∧
      ∀ j, (ofLayout h es).boundary j ≤ k → (ofLayout h es).boundary j ≤ o := by
  by_cases hheader : k < h.bytes.length
  · refine ⟨0, ?_, fun j hj => ?_⟩
    · rw [layOut, List.append_assoc]
      exact decode_cut hh _ (by omega) hheader
    · have hle : h.bytes.length ≤ (ofLayout h es).boundary j := Nat.le_add_right _ _
      omega
  · obtain ⟨d, rfl⟩ := Nat.exists_eq_add_of_le (Nat.not_lt.1 hheader)
    rw [extent_ofLayout, layOut, List.length_append] at hk
    obtain ⟨j, m, rfl, hpiece⟩ := exists_piece EventLayout.bytes es (k := d) (by omega)
    have hboundary : h.bytes.length + (((es.take j).flatMap EventLayout.bytes).length + m) =
        (ofLayout h es).boundary j + m := by
      rw [boundary_ofLayout, layOut, List.length_append, Nat.add_assoc]
    rw [hboundary] at hne ⊢
    rcases hpiece with ⟨rfl, hj⟩ | ⟨hj, hm, hlt⟩
    · exact absurd rfl (hne j hj)
    · refine ⟨_, decode_take_inside hh hes tail hj hm hlt, fun i hi => boundary_mono _ ?_⟩
      have hj' : j < (ofLayout h es).events.length := by simpa [ofLayout] using hj
      have hnext : (ofLayout h es).boundary (j + 1) = (ofLayout h es).boundary j + es[j].bytes.length := by
        rw [boundary_succ _ hj']
        simp [ofLayout, EventLayout.read]
      -- the boundary behind the record that is cut lies behind the cut, so no later one is before it
      refine Nat.not_lt.1 fun hij => ?_
      have hmono := boundary_mono (ofLayout h es) (show j + 1 ≤ i from hij)
      omega

theorem decode_take_marker {h : HeaderLayout} {es : List EventLayout} (hh : h.Fits)
    (hes : ∀ e ∈ es, e.Fits (lastSize h.declarations)) {tail : Bytes} (htail : endBytes <+: tail) {i : Nat} (h0 : 0 < i)
    (h4 : i < 4) : decode ((layOut h es ++ tail).take ((layOut h es).length + i)) =
      .error (.truncatedRecord (layOut h es).length 4 ((layOut h es).length + i)) := by
  have hlen : i ≤ tail.length := by
    have hmarker : 4 ≤ tail.length := htail.length_le
    omega
  have hshort : readEvents (.ofList h.declarations) ⟨(layOut h es).length, tail.take i⟩ =
      .error (.truncatedRecord (layOut h es).length 4 ((layOut h es).length + i)) :=
    readEvents_cut_field _ (c := ⟨_, tail⟩) h0 h4 hlen
  rw [List.take_length_add_append, decode_append hh hes, hshort]
  rfl

/-- **Truncation.** Cut off at its start a log has no header; cut off behind a record it is the log of the records
before; cut off anywhere else, also within the end marker, it is refused at an offset behind the last whole record. -/
theorem decode_truncated {bs : Bytes} {log : EventLog} (hd : decode bs = .ok log) :
    log.extent ≤ bs.length ∧
      (∀ k ≤ log.extent,
        (k = 0 → decode (bs.take k) = .error .missingHeader) ∧
        (∀ j ≤ log.events.length, k = log.boundary j →
          decode (bs.take k) = .ok { log with events := log.events.take j }) ∧
        (k ≠ 0 → (∀ j ≤ log.events.length, k ≠ log.boundary j) →
          ∃ offset needed, decode (bs.take k) = .error (.truncatedRecord offset needed k) ∧
            offset ≤ k ∧ k < offset + needed ∧ ∀ j ≤ log.events.length, log.boundary j ≤ k → log.boundary j ≤ offset)) ∧
      (endBytes <+: bs.drop log.extent → ∀ i, 1 ≤ i → i ≤ 3 →
        decode (bs.take (log.extent + i)) = .error (.truncatedRecord log.extent 4 (log.extent + i))) := by
  obtain ⟨h, es, tail, hh, hes, -, rfl, rfl⟩ := exists_layout_of_decode hd
  refine ⟨?_, fun k hk => ⟨?_, ?_, ?_⟩, ?_⟩
  · rw [extent_ofLayout, List.length_append]
    omega
  · intro h0
    rw [h0]
    rfl
  · intro j _ hj
    rw [hj]
    exact decode_take_boundary hh hes tail j
  · intro h0 hne
    obtain ⟨o, ⟨offset, needed, herror, ho, hle, hlt⟩, hlast⟩ :=
      decode_take_between hh hes tail hk h0 (by simpa [ofLayout] using hne)
    exact ⟨offset, needed, herror, hle, hlt, fun j _ hj => Nat.le_trans (hlast j hj) ho⟩
  · intro hmarker i h1 h3
    rw [extent_ofLayout] at hmarker ⊢
    rw [List.drop_left] at hmarker
    exact decode_take_marker hh hes hmarker h1 (by omega)

theorem decode_truncated_sample :
    decode sampleBytes = .ok sampleLog ∧ sampleLog.extent = 117 ∧
      decode (sampleBytes.take 101) = .ok { sampleLog with events := sampleLog.events.take 1 } ∧
      (∃ offset needed, decode (sampleBytes.take 90) = .error (.truncatedRecord offset needed 90) ∧ 74 ≤ offset) ∧
      decode (sampleBytes.take 119) = .error (.truncatedRecord 117 4 119) := by
  have hextent : sampleLog.extent = 117 := by decide
  have hfirst : sampleLog.boundary 0 = 74 := by decide
  have hsecond : sampleLog.boundary 1 = 101 := by decide
  obtain ⟨-, hcut, hmarker⟩ := decode_truncated decode_sampleBytes
  refine ⟨decode_sampleBytes, hextent, (hcut 101 (by decide)).2.1 1 (by decide) hsecond.symm, ?_, ?_⟩
  · obtain ⟨offset, needed, herror, -, -, hlast⟩ := (hcut 90 (by decide)).2.2 (by decide) (by decide)
    exact ⟨offset, needed, herror, hfirst ▸ hlast 0 (by decide) (by decide)⟩
  · rw [hextent] at hmarker
    exact hmarker (by decide) 2 (by decide) (by decide)

end Attestation.EventLog
