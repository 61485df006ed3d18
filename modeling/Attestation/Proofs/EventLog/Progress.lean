import Attestation.Proofs.EventLog.Online

/-!
# What decoding costs

* `Confined bs start r c` : from the cursor `c` on, the reader `r` never leaves the bytes of `bs` behind `start`;
* `Scan`, `Scan.turn`, `Scan.run` : the scan of a log turn by turn, as a machine that may not come to an end;
* `Scan.run_start` : it does come to an end, with the result of `decode`;
* `decode_bounded` : where the scan stands in each turn, how far it moves, and what a decoded log announces.
-/

namespace Attestation.EventLog

variable {α : Type}

/-! ## Readers that stay inside -/

/-- The cursor is in `bs`, at `start` or behind it. -/
structure Cursor.Stands (bs : Bytes) (start : Nat) (c : Cursor) : Prop where
  start_le : start ≤ c.offset
  le_length : c.offset ≤ bs.length
  rest_eq : c.rest = bs.drop c.offset

namespace Cursor.Stands
variable {bs : Bytes} {start : Nat} {c : Cursor}

theorem origin (bs : Bytes) : (Cursor.start bs).Stands bs 0 := ⟨Nat.zero_le 0, Nat.zero_le _, rfl⟩

/-- A record begins where the cursor is. -/
theorem here (hc : c.Stands bs start) : c.Stands bs c.offset := ⟨Nat.le_refl _, hc.le_length, hc.rest_eq⟩

theorem length_rest (hc : c.Stands bs start) : c.rest.length = bs.length - c.offset := by
  rw [hc.rest_eq, List.length_drop]

theorem advance (hc : c.Stands bs start) {k : Nat} (hk : k ≤ c.rest.length) : (c.advance k).Stands bs start := by
  have hlength := hc.length_rest
  have hstart := hc.start_le
  have hle := hc.le_length
  constructor
  · show start ≤ c.offset + k
    omega
  · show c.offset + k ≤ bs.length
    omega
  · show c.rest.drop k = bs.drop (c.offset + k)
    rw [hc.rest_eq, List.drop_drop]

/-- What a reader leaves behind itself is what it has gone over. -/
theorem of_consumes (hc : c.Stands bs start) {n : Nat} {r : Reader α} (hr : Consumes n r) {a : α} {c' : Cursor}
    (h : r c = .ok (a, c')) : c'.Stands bs start ∧ c.offset + n ≤ c'.offset := by
  obtain ⟨k, hn, hk, rfl⟩ := hr c c' a h
  exact ⟨hc.advance hk, Nat.add_le_add_left hn c.offset⟩

end Cursor.Stands

/-- From the cursor on, `r` is in `bs`, at `start` or behind it, whenever it takes bytes and when it is done; and where
it asks for bytes, the offset behind them is a number of 64 bits, whether they are there or not. -/
inductive Confined {α : Type} (bs : Bytes) (start : Nat) : Reader α → Cursor → Prop where
  | done {c : Cursor} (hc : c.Stands bs start) (a : α) : Confined bs start (pure a) c
  | refuse {c : Cursor} (hc : c.Stands bs start) (algorithm : UInt16) :
      Confined bs start (throw (.unknownAlgorithm algorithm)) c
  | next {c : Cursor} (hc : c.Stands bs start) {n : Nat} (hend : bs.length < 2 ^ 63 → c.offset + n < 2 ^ 64)
      {k : Bytes → Reader α} (h : ∀ taken c', take n c = .ok (taken, c') → Confined bs start (k taken) c') :
      Confined bs start (take n >>= k) c

/-- **A sequential reader stays inside.** -/
theorem Sequential.confined {r : Reader α} (hr : Sequential r) {bs : Bytes} {start : Nat} {c : Cursor}
    (hc : c.Stands bs start) : Confined bs start r c := by
  induction hr generalizing c with
  | done a => exact .done hc a
  | refuse algorithm => exact .refuse hc algorithm
  | next n hn k _ ih =>
    refine .next hc (fun hlength => ?_) fun taken c' htake => ih taken (hc.of_consumes (consumes_take n) htake).1
    have hle := hc.le_length
    have hsize : UInt32.size = 2 ^ 32 := rfl
    omega

/-! ## The scan, turn by turn -/

/-- The least number of bytes of a header: register, type, digest count, the fixed fields, the number of algorithms and
the length of the vendor information. -/
def minHeader : Nat := 61

theorem consumes_readHeader : Consumes minHeader readHeader := by
  have declaration : Consumes 4 readDeclaration :=
    consumes_word16.bind fun _ => consumes_word16.bind fun _ => consumes_pure _
  have declarations : Consumes 4 readDeclarations :=
    consumes_word32.bind (n := 0) fun _ => (declaration.times _).mono (Nat.zero_le _)
  have vendorInfo : Consumes 1 skipVendorInfo :=
    consumes_byte.bind (n := 0) fun _ => ((consumes_take _).bind fun _ => consumes_pure _).mono (Nat.zero_le _)
  have fields : Consumes minHeader readHeaderFields :=
    consumes_readPreamble.bind fun _ => (consumes_take fixedFields).bind fun _ => declarations.bind fun _ =>
      vendorInfo.bind fun _ => consumes_pure _
  exact fields.withRaw.bind fun _ => consumes_pure _

/-- What a turn looks at before it reads a record: the type of the record, unless the log ends here. -/
def lookAhead : Reader (Option UInt32) := do
  let field ← word32
  if field = endMarker then return none
  else return some (← word32)

theorem sequential_lookAhead : Sequential lookAhead := by
  refine sequential_word32.bind fun field => ?_
  split
  · exact .done none
  · exact sequential_word32.bind fun _ => .done _

theorem lookAhead_eq (c : Cursor) :
    lookAhead c = (word32 c).bind fun x =>
      if x.1 = endMarker then .ok (none, x.2) else (word32 x.2).map fun y => (some y.1, y.2) := by
  cases hfield : word32 c with
  | error e => rw [lookAhead, bind_of_error hfield, Except.bind]
  | ok x =>
    rw [lookAhead, bind_of_ok hfield, Except.bind]
    split
    · rfl
    · cases htype : word32 x.2 with
      | error e => rw [bind_of_error htype, Except.map]
      | ok y => rw [bind_of_ok htype, Except.map, pure_apply]

/-- Where the scan of a log is. -/
structure Scan where
  cursor : Cursor
  /-- The header, once it is read. -/
  header? : Option Header
  /-- The events so far, the last one first. -/
  events : List Event

namespace Scan

def start (bs : Bytes) : Scan := { cursor := .start bs, header? := none, events := [] }

/-- The result of a log that ends here. -/
def finish (s : Scan) : Except Fault EventLog :=
  match s.header? with
  | none => .error .missingHeader
  | some header => .ok { header, events := s.events.reverse }

/-- One turn: it ends the scan with a result, or says where the scan goes on. -/
def turn (s : Scan) : Except Fault EventLog ⊕ Scan :=
  if s.cursor.rest.isEmpty then .inl s.finish
  else match lookAhead s.cursor with
    | .error e => .inl (.error e)
    | .ok (none, _) => .inl s.finish
    | .ok (some eventType, _) =>
      match s.header? with
      | none =>
        if eventType = noAction then
          match readHeader s.cursor with
          | .error e => .inl (.error e)
          | .ok (header, next) => .inr { s with header? := some header, cursor := next }
        else .inl (.error .missingHeader)
      | some header =>
        match readEvent header.digestSizes s.cursor with
        | .error e => .inl (.error e)
        | .ok (event, next) => .inr { s with events := event :: s.events, cursor := next }

/-- The result, if `n` turns are enough. -/
def run : (n : Nat) → Scan → Option (Except Fault EventLog)
  | 0, _ => none
  | n + 1, s =>
    match s.turn with
    | .inl result => some result
    | .inr next => run n next

/-- The scan of `bs` comes here. -/
inductive Reached (bs : Bytes) : Scan → Prop where
  | start : Reached bs (Scan.start bs)
  | turn {s next : Scan} (hs : Reached bs s) (h : s.turn = .inr next) : Reached bs next

/-- All that a turn may read keeps between the beginning of the record and the end of `bs`. -/
structure Inside (bs : Bytes) (s : Scan) : Prop where
  lookAhead : Confined bs s.cursor.offset lookAhead s.cursor
  header : Confined bs s.cursor.offset readHeader s.cursor
  event : ∀ sizes, Confined bs s.cursor.offset (readEvent sizes) s.cursor

/-- A turn that does not end the scan has read the header, or an event behind it. -/
theorem turn_eq_inr {s next : Scan} (h : s.turn = .inr next) :
    (s.header? = none ∧ ∃ header, readHeader s.cursor = .ok (header, next.cursor) ∧
      next = { s with header? := some header, cursor := next.cursor }) ∨
    ∃ header event, s.header? = some header ∧ readEvent header.digestSizes s.cursor = .ok (event, next.cursor) ∧
      next = { s with events := event :: s.events, cursor := next.cursor } := by
  unfold turn at h
  split at h
  · cases h
  split at h
  · cases h
  · cases h
  split at h
  · next hheader =>
    split at h
    · split at h
      · cases h
      · next header c' hread =>
        cases h
        exact .inl ⟨hheader, header, hread, rfl⟩
    · cases h
  · next header hheader =>
    split at h
    · cases h
    · next event c' hread =>
      cases h
      exact .inr ⟨header, event, hheader, hread, rfl⟩

theorem Reached.stands {bs : Bytes} {s : Scan} (hs : Reached bs s) : s.cursor.Stands bs 0 := by
  induction hs with
  | start => exact .origin bs
  | turn _ h ih =>
    rcases turn_eq_inr h with ⟨-, header, hread, -⟩ | ⟨header, event, -, hread, -⟩
    · exact (ih.of_consumes consumes_readHeader hread).1
    · exact (ih.of_consumes (consumes_readEvent _) hread).1

theorem Reached.inside {bs : Bytes} {s : Scan} (hs : Reached bs s) : s.Inside bs :=
  { lookAhead := sequential_lookAhead.confined hs.stands.here
    header := sequential_readHeader.confined hs.stands.here
    event := fun sizes => (sequential_readEvent sizes).confined hs.stands.here }

theorem Reached.progress {bs : Bytes} {s next : Scan} (hs : Reached bs s) (h : s.turn = .inr next) :
    s.cursor.offset + (if s.header? = none then minHeader else minEvent) ≤ next.cursor.offset := by
  rcases turn_eq_inr h with ⟨hheader, header, hread, -⟩ | ⟨header, event, hheader, hread, -⟩
  · rw [if_pos hheader]
    exact (hs.stands.of_consumes consumes_readHeader hread).2
  · rw [if_neg (by simp [hheader])]
    exact (hs.stands.of_consumes (consumes_readEvent _) hread).2

/-! ## The end of the scan -/

/-- Behind the header, the type that a turn looks at makes no difference: what is missing for it is missing for the
event. -/
theorem turn_of_header {s : Scan} {header : Header} (h : s.header? = some header) :
    s.turn =
      if s.cursor.rest.isEmpty then .inl s.finish
      else match word32 s.cursor with
        | .error e => .inl (.error e)
        | .ok (field, _) =>
          if field = endMarker then .inl s.finish
          else match readEvent header.digestSizes s.cursor with
            | .error e => .inl (.error e)
            | .ok (event, next) => .inr { s with events := event :: s.events, cursor := next } := by
  unfold turn
  split
  · rfl
  · rw [lookAhead_eq]
    cases hfield : word32 s.cursor with
    | error e => rfl
    | ok x =>
      simp only [Except.bind]
      by_cases hmarker : x.1 = endMarker
      · simp only [if_pos hmarker]
      · simp only [if_neg hmarker]
        cases htype : word32 x.2 with
        | error e =>
          rw [readEvent_of_preamble header.digestSizes (readPreamble_of_type hfield htype)]
          rfl
        | ok y => rw [Except.map, h]

theorem turn_start (bs : Bytes) :
    (Scan.start bs).turn =
      match checkStart (.start bs) with
      | .error e => .inl (.error e)
      | .ok () => match readHeader (.start bs) with
        | .error e => .inl (.error e)
        | .ok (header, next) => .inr { cursor := next, header? := some header, events := [] } := by
  have hcursor : (Scan.start bs).cursor = .start bs := rfl
  have hheader : (Scan.start bs).header? = none := rfl
  unfold turn
  rw [hcursor, lookAhead_eq, checkStart_eq]
  split
  · rfl
  · cases word32 (.start bs) with
    | error e => rfl
    | ok x =>
      simp only [Except.bind]
      by_cases hmarker : x.1 = endMarker
      · simp only [if_pos hmarker]
        rfl
      · simp only [if_neg hmarker]
        cases word32 x.2 with
        | error e => rfl
        | ok y =>
          rw [Except.map, hheader]
          by_cases htype : y.1 = noAction
          · simp only [if_pos htype]
            rfl
          · simp only [if_neg htype]

/-- Behind the header, one turn for every 16 bytes, and one more to end, are enough. -/
theorem run_of_header {s : Scan} {header : Header} (h : s.header? = some header) {n : Nat}
    (hn : s.cursor.rest.length < minEvent * n) :
    run n s = some ((readEventsOnto header.digestSizes s.events s.cursor).map fun events => { header, events }) := by
  have hfinish {s : Scan} (h : s.header? = some header) : s.finish = .ok { header, events := s.events.reverse } := by
    rw [finish, h]
  induction n generalizing s with
  | zero => cases hn
  | succ n ih =>
    rw [run, turn_of_header h, readEventsOnto_eq]
    by_cases hempty : s.cursor.rest.isEmpty = true
    · rw [if_pos hempty, if_pos hempty, hfinish h]
      rfl
    · rw [if_neg hempty, if_neg hempty]
      cases hfield : word32 s.cursor with
      | error e => rfl
      | ok x =>
        simp only
        by_cases hmarker : x.1 = endMarker
        · rw [if_pos hmarker, if_pos hmarker, hfinish h]
          rfl
        · rw [if_neg hmarker, if_neg hmarker]
          cases hread : readEvent header.digestSizes s.cursor with
          | error e => rfl
          | ok y =>
            obtain ⟨event, c'⟩ := y
            obtain ⟨k, hk, hle, rfl⟩ := consumes_readEvent _ _ _ _ hread
            refine ih h ?_
            show (s.cursor.rest.drop k).length < minEvent * n
            rw [List.length_drop]
            rw [Nat.mul_succ] at hn
            omega

/-- **The scan ends**, with the result of `decode`. -/
theorem run_start (bs : Bytes) : run (bs.length / minEvent + 1) (Scan.start bs) = some (decode bs) := by
  rw [run, turn_start, decode_eq]
  cases checkStart (.start bs) with
  | error e => rfl
  | ok u =>
    cases hread : readHeader (.start bs) with
    | error e => rfl
    | ok x =>
      obtain ⟨header, next⟩ := x
      obtain ⟨k, hk, hle, rfl⟩ := consumes_readHeader _ _ _ hread
      refine run_of_header rfl ?_
      show (bs.drop k).length < 16 * (bs.length / 16)
      rw [List.length_drop]
      have hmin : 61 ≤ k := hk
      have hrest : k ≤ bs.length := hle
      omega

end Scan

/-! ## What a decoded log announces -/

theorem HeaderLayout.length_bytes (h : HeaderLayout) :
    h.bytes.length = minHeader + 4 * h.declarations.length + h.vendor.length := by
  have hdeclarations : (h.declarations.flatMap fun d => le16 d.1 ++ le16 d.2).length = h.declarations.length * 4 := by
    simp [List.length_flatMap, le16]
  have hfixed : h.fixed.bytes.length = 44 := h.fixed.length_eq
  simp only [HeaderLayout.bytes, List.length_append, length_le32, Bytes.length_ofNatLE, hdeclarations, hfixed,
    minHeader]
  omega

theorem EventLayout.length_bytes (e : EventLayout) :
    e.bytes.length = minEvent + 2 * e.digests.length + (e.digests.map fun d => d.2.length).sum + e.payload.length := by
  have hdigests : (e.digests.flatMap fun d => le16 d.1 ++ d.2).length =
      2 * e.digests.length + (e.digests.map fun d => d.2.length).sum := by
    simp [List.length_flatMap, le16, List.sum_map_add, Nat.mul_comm]
  simp only [EventLayout.bytes, List.length_append, length_le32, hdigests, minEvent]
  omega

/-- The lengths that an event says, and what goes with them, add up to its bytes. -/
theorem EventLayout.announced_read {sizeOf : UInt16 → Option UInt16} {e : EventLayout} (he : e.Fits sizeOf) :
    16 + 2 * e.read.digestCount.toNat + (e.read.digests.map List.length).sum + e.read.payloadSize.toNat =
      e.bytes.length := by
  obtain ⟨-, hcount, hpayload, -⟩ := he
  have hdigests : (e.read.digests.map List.length).sum = (e.digests.map fun d => d.2.length).sum := by
    rw [read, List.map_map]
    rfl
  rw [hdigests, e.length_bytes, read, UInt32.toNat_ofNat_of_lt' hcount, UInt32.toNat_ofNat_of_lt' hpayload, minEvent]

/-- **Progress and bounds.** Wherever the scan of a byte string comes, it reads between the beginning of a record and
the end of the bytes, and each turn ends it or goes on behind a record of at least 61 bytes for the header and 16 for
an event. So it ends. What a decoded log announces was in its bytes. -/
theorem decode_bounded (bs : Bytes) :
    (∀ s, Scan.Reached bs s → s.Inside bs ∧ ∀ next, s.turn = .inr next →
      s.cursor.offset + (if s.header? = none then 61 else 16) ≤ next.cursor.offset ∧
        next.cursor.offset ≤ bs.length) ∧
      Scan.run (bs.length / 16 + 1) (.start bs) = some (decode bs) ∧
      ∀ log, decode bs = .ok log →
        61 + 4 * log.header.digestSizes.size + (log.events.map fun e => 16 + 2 * e.digestCount.toNat +
          (e.digests.map List.length).sum + e.payloadSize.toNat).sum ≤ bs.length := by
  refine ⟨fun s hs => ⟨hs.inside, fun next h => ⟨hs.progress h, ?_⟩⟩, Scan.run_start bs, fun log hd => ?_⟩
  · exact (hs.turn h).stands.le_length
  · obtain ⟨h, es, tail, hh, hes, -, rfl, rfl⟩ := exists_layout_of_decode hd
    have hevents : ((ofLayout h es).events.map fun e => 16 + 2 * e.digestCount.toNat +
        (e.digests.map List.length).sum + e.payloadSize.toNat) = es.map fun e => e.bytes.length := by
      rw [ofLayout, List.map_map]
      exact List.map_congr_left fun e he => EventLayout.announced_read (hes e he)
    have hsize : (ofLayout h es).header.digestSizes.size ≤ h.declarations.length := DigestTable.size_ofList_le _
    have hheader : h.bytes.length = 61 + 4 * h.declarations.length + h.vendor.length := h.length_bytes
    rw [hevents, List.length_append, layOut, List.length_append, List.length_flatMap]
    omega

/-- The scan of the sample log behind its header of 74 bytes. -/
def sampleScan : Scan :=
  { cursor := ⟨74, sampleBytes.drop 74⟩, header? := some sampleHeader.read, events := [] }

theorem decode_bounded_sample :
    (Scan.start sampleBytes).turn = .inr sampleScan ∧ sampleScan.Inside sampleBytes ∧
      (0 + 61 ≤ sampleScan.cursor.offset ∧ sampleScan.cursor.offset ≤ 122) ∧
      Scan.run 8 (.start sampleBytes) = some (decode sampleBytes) ∧
      decode sampleBytes = .ok sampleLog ∧ 61 + 4 * 2 + (27 + 16) ≤ 122 := by
  have hturn : (Scan.start sampleBytes).turn = .inr sampleScan := by cbv
  have hlength : sampleBytes.length = 122 := by cbv
  obtain ⟨hreached, hrun, hok⟩ := decode_bounded sampleBytes
  rw [hlength] at hrun hok
  refine ⟨hturn, ?_, ?_, hrun, decode_sampleBytes, ?_⟩
  · exact (hreached sampleScan (.turn .start hturn)).1
  · rw [← hlength]
    exact (hreached _ .start).2 sampleScan hturn
  · exact hok sampleLog decode_sampleBytes

end Attestation.EventLog
