import Attestation.Proofs.EventLog.Truncation

/-!
# Logs that go on

The firmware writes a log while it is read, so a decoder may meet bytes to which others are added later.

* `Refusal o total e` : `e` is a refusal of a reader that began at offset `o` of `total` bytes;
* `Fault.Stands m`, `Fault.grown m` : `m` more bytes do not help against a refusal, and what it says then;
* `Sequential.grow`, `Sequential.grow_error`, `Sequential.grow_past` : what a sequential reader makes of more bytes;
* `decode_online` : what the decoder makes of them, for each of its results.
-/

namespace Attestation

namespace Fault

/-- The refusal is not for missing bytes, or bytes are still missing when there are `m` more. -/
def Stands (m : Nat) : Fault → Prop
  | truncatedRecord offset needed available => available + m < offset + needed
  | _ => True

/-- The refusal when there are `m` more bytes and it stands. -/
def grown (m : Nat) : Fault → Fault
  | truncatedRecord offset needed available => truncatedRecord offset needed (available + m)
  | fault => fault

end Fault

namespace EventLog
open DigestTable (lastSize get?_ofList)

variable {α β : Type}

/-! ## Refusals -/

/-- Why a reader that began at offset `o` of `total` bytes gave up: at an offset from `o` on it asked for more bytes than
there are, or it met an algorithm that is not declared. -/
inductive Refusal (o total : Nat) : Fault → Prop where
  | short {offset needed : Nat} (ho : o ≤ offset) (hle : offset ≤ total) (hlt : total < offset + needed) :
      Refusal o total (.truncatedRecord offset needed total)
  | unknown (algorithm : UInt16) : Refusal o total (.unknownAlgorithm algorithm)

theorem Refusal.mono {o o' total : Nat} {e : Fault} (h : Refusal o total e) (ho : o' ≤ o) : Refusal o' total e := by
  cases h with
  | short ho' hle hlt => exact .short (Nat.le_trans ho ho') hle hlt
  | unknown algorithm => exact .unknown algorithm

theorem take_of_le {n : Nat} {c : Cursor} (h : n ≤ c.rest.length) : take n c = .ok (c.rest.take n, c.advance n) :=
  if_pos (List.length_take_of_le h)

theorem take_of_lt {n : Nat} {c : Cursor} (h : c.rest.length < n) :
    take n c = .error (.truncatedRecord c.offset n c.total) := by
  refine if_neg ?_
  rw [List.length_take]
  omega

theorem Cursor.total_advance {c : Cursor} {n : Nat} (h : n ≤ c.rest.length) : (c.advance n).total = c.total := by
  simp only [Cursor.advance, Cursor.total, List.length_drop]
  omega

theorem Sequential.refusal {r : Reader α} (hr : Sequential r) {c : Cursor} {e : Fault} (h : r c = .error e) :
    Refusal c.offset c.total e := by
  induction hr generalizing c with
  | done a => cases h
  | refuse algorithm =>
    cases h
    exact .unknown algorithm
  | next n _ f _ ih =>
    by_cases hn : n ≤ c.rest.length
    · rw [bind_of_ok (take_of_le hn)] at h
      have hrest := ih _ h
      rw [Cursor.total_advance hn] at hrest
      exact hrest.mono (Nat.le_add_right _ _)
    · rw [bind_of_error (take_of_lt (Nat.not_le.1 hn))] at h
      cases h
      refine .short (Nat.le_refl _) (Nat.le_add_right _ _) ?_
      rw [Cursor.total]
      omega

/-! ## More bytes -/

/-- The same position, with more bytes at the end. -/
def Cursor.grow (c : Cursor) (more : Bytes) : Cursor := ⟨c.offset, c.rest ++ more⟩

theorem Cursor.total_grow (c : Cursor) (more : Bytes) : (c.grow more).total = c.total + more.length := by
  simp only [Cursor.grow, Cursor.total, List.length_append]
  omega

theorem take_grow {n : Nat} {c : Cursor} (h : n ≤ c.rest.length) (more : Bytes) :
    take n (c.grow more) = .ok (c.rest.take n, (c.advance n).grow more) := by
  have hgrown : n ≤ (c.grow more).rest.length := by
    rw [Cursor.grow, List.length_append]
    omega
  rw [take_of_le hgrown]
  simp only [Cursor.grow, Cursor.advance, List.take_append_of_le_length h, List.drop_append_of_le_length h]

/-- What has been read stays as it is. -/
theorem Sequential.grow {r : Reader α} (hr : Sequential r) {c c' : Cursor} {a : α} (h : r c = .ok (a, c'))
    (more : Bytes) : r (c.grow more) = .ok (a, c'.grow more) := by
  induction hr generalizing c with
  | done b =>
    cases h
    rfl
  | refuse algorithm => cases h
  | next n _ f _ ih =>
    by_cases hn : n ≤ c.rest.length
    · rw [bind_of_ok (take_of_le hn)] at h
      rw [bind_of_ok (take_grow hn more)]
      exact ih _ h
    · rw [bind_of_error (take_of_lt (Nat.not_le.1 hn))] at h
      cases h

/-- A refusal that stands is made again. -/
theorem Sequential.grow_error {r : Reader α} (hr : Sequential r) {c : Cursor} {e : Fault} (h : r c = .error e)
    {more : Bytes} (hstands : e.Stands more.length) : r (c.grow more) = .error (e.grown more.length) := by
  induction hr generalizing c with
  | done a => cases h
  | refuse algorithm =>
    cases h
    rfl
  | next n _ f _ ih =>
    by_cases hn : n ≤ c.rest.length
    · rw [bind_of_ok (take_of_le hn)] at h
      rw [bind_of_ok (take_grow hn more)]
      exact ih _ h
    · rw [bind_of_error (take_of_lt (Nat.not_le.1 hn))] at h
      cases h
      have hshort : (c.grow more).rest.length < n := by
        simp only [Fault.Stands, Cursor.total] at hstands
        rw [Cursor.grow, List.length_append]
        omega
      rw [bind_of_error (take_of_lt hshort), Cursor.total_grow]
      rfl

/-- If bytes are missing for the result, they are missing at offset `o` or behind it. -/
def Beyond (o : Nat) (result : Except Fault α) : Prop :=
  ∀ offset needed available, result = .error (.truncatedRecord offset needed available) → o ≤ offset

theorem Beyond.mono {o o' : Nat} {result : Except Fault α} (h : Beyond o result) (ho : o' ≤ o) : Beyond o' result :=
  fun offset needed available he => Nat.le_trans ho (h offset needed available he)

theorem Beyond.map {o : Nat} {result : Except Fault α} (h : Beyond o result) (f : α → β) : Beyond o (result.map f) := by
  cases result with
  | ok a => exact fun _ _ _ he => nomatch he
  | error e => exact fun offset needed available he => h offset needed available (by cases he; rfl)

/-- The reading has gone on to offset `o`: it ended there or behind, or bytes are missing there or behind. -/
def Past (o : Nat) (result : Except Fault (α × Cursor)) : Prop :=
  Beyond o result ∧ ∀ a c, result = .ok (a, c) → o ≤ c.offset

theorem Sequential.past {r : Reader α} (hr : Sequential r) (c : Cursor) : Past c.offset (r c) := by
  constructor
  · intro offset needed available he
    cases hr.refusal he with
    | short ho _ _ => exact ho
  · intro a d hd
    obtain ⟨p, -, hoffset⟩ := hr.rest hd
    omega

/-- When the missing bytes are there, the reading goes on behind them. -/
theorem Sequential.grow_past {r : Reader α} (hr : Sequential r) {c : Cursor} {offset needed available : Nat}
    (h : r c = .error (.truncatedRecord offset needed available)) {more : Bytes}
    (hmore : offset + needed ≤ available + more.length) : Past (offset + needed) (r (c.grow more)) := by
  induction hr generalizing c with
  | done a => cases h
  | refuse algorithm => cases h
  | next n _ f hf ih =>
    by_cases hn : n ≤ c.rest.length
    · rw [bind_of_ok (take_of_le hn)] at h
      rw [bind_of_ok (take_grow hn more)]
      exact ih _ h
    · rw [bind_of_error (take_of_lt (Nat.not_le.1 hn))] at h
      cases h
      have hlong : needed ≤ (c.grow more).rest.length := by
        rw [Cursor.total] at hmore
        rw [Cursor.grow, List.length_append]
        omega
      rw [bind_of_ok (take_of_le hlong)]
      exact (hf _).past _

theorem Sequential.total_eq {r : Reader α} (hr : Sequential r) {c c' : Cursor} {a : α} (h : r c = .ok (a, c')) :
    c'.total = c.total ∧ c.offset ≤ c'.offset := by
  obtain ⟨p, hrest, hoffset⟩ := hr.rest h
  rw [Cursor.total, Cursor.total, hrest, hoffset, List.length_append]
  omega

theorem not_isEmpty_grow {c : Cursor} (h : ¬ c.rest.isEmpty = true) (more : Bytes) :
    ¬ (c.grow more).rest.isEmpty = true := by
  rw [List.isEmpty_iff] at h ⊢
  simp [Cursor.grow, h]

/-! ## The first fields -/

section Preamble
variable {c : Cursor} {e : Fault}

theorem readPreamble_of_field (h : word32 c = .error e) : readPreamble c = .error e := bind_of_error h _

theorem readPreamble_of_type {next : Cursor} {field : UInt32} (hfield : word32 c = .ok (field, next))
    (htype : word32 next = .error e) : readPreamble c = .error e := by
  rw [readPreamble, bind_of_ok hfield]
  exact bind_of_error htype _

/-- What is missing for the first fields is missing for the header, and so for an event. -/
theorem readHeader_of_preamble (h : readPreamble c = .error e) : readHeader c = .error e :=
  bind_of_error (withRaw_of_error (bind_of_error h _)) _

theorem readEvent_of_preamble (sizes : DigestTable) (h : readPreamble c = .error e) : readEvent sizes c = .error e :=
  bind_of_error (withRaw_of_error (bind_of_error h _)) _

/-- The scan looks at the field that the event begins with, so bytes that it misses there are missing for the event. -/
theorem readEvent_of_word32 (sizes : DigestTable) (h : word32 c = .error e) : readEvent sizes c = .error e :=
  readEvent_of_preamble sizes (readPreamble_of_field h)

end Preamble

/-! ## Events -/

section Events
variable (sizes : DigestTable)

theorem readEventsOnto_refusal {acc : List Event} {c : Cursor} {e : Fault} (h : readEventsOnto sizes acc c = .error e) :
    Refusal c.offset c.total e := by
  fun_induction readEventsOnto sizes acc c with
  | case1 => cases h
  | case2 acc c hempty e' hword =>
    cases h
    exact sequential_word32.refusal hword
  | case3 => cases h
  | case4 acc c hempty field c' hword hfield e' he =>
    cases h
    exact (sequential_readEvent sizes).refusal he
  | case5 acc c hempty field c' hword hfield e' c'' he hlt ih =>
    obtain ⟨htotal, hoffset⟩ := (sequential_readEvent sizes).total_eq he
    rw [← htotal]
    exact (ih h).mono hoffset

theorem readEventsOnto_beyond (acc : List Event) (c : Cursor) : Beyond c.offset (readEventsOnto sizes acc c) := by
  intro offset needed available he
  cases readEventsOnto_refusal sizes he with
  | short ho _ _ => exact ho

theorem readEventsOnto_beyond_of_past {acc : List Event} {c : Cursor} {o : Nat} (h : Past o (readEvent sizes c)) :
    Beyond o (readEventsOnto sizes acc c) := by
  rw [readEventsOnto_eq]
  split
  · exact fun _ _ _ he => nomatch he
  · cases hword : word32 c with
    | error e =>
      rw [readEvent_of_word32 sizes hword] at h
      exact fun offset needed available he => h.1 offset needed available (by cases he; rfl)
    | ok x =>
      simp only
      split
      · exact fun _ _ _ he => nomatch he
      · cases he : readEvent sizes c with
        | error e =>
          rw [he] at h
          exact fun offset needed available he => h.1 offset needed available (by cases he; rfl)
        | ok y => exact (readEventsOnto_beyond sizes _ _).mono (h.2 y.1 y.2 he)

theorem readEventsOnto_grow_error {acc : List Event} {c : Cursor} {e : Fault}
    (h : readEventsOnto sizes acc c = .error e) {more : Bytes} (hstands : e.Stands more.length) :
    readEventsOnto sizes acc (c.grow more) = .error (e.grown more.length) := by
  fun_induction readEventsOnto sizes acc c with
  | case1 => cases h
  | case2 acc c hempty e' hword =>
    cases h
    rw [readEventsOnto_eq, if_neg (not_isEmpty_grow hempty more), sequential_word32.grow_error hword hstands]
  | case3 => cases h
  | case4 acc c hempty field c' hword hfield e' he =>
    cases h
    rw [readEventsOnto_eq, if_neg (not_isEmpty_grow hempty more), sequential_word32.grow hword]
    simp only [if_neg hfield]
    rw [(sequential_readEvent sizes).grow_error he hstands]
  | case5 acc c hempty field c' hword hfield e' c'' he hlt ih =>
    rw [readEventsOnto_eq, if_neg (not_isEmpty_grow hempty more), sequential_word32.grow hword]
    simp only [if_neg hfield]
    rw [(sequential_readEvent sizes).grow he]
    exact ih h

theorem readEventsOnto_grow_past {acc : List Event} {c : Cursor} {offset needed available : Nat}
    (h : readEventsOnto sizes acc c = .error (.truncatedRecord offset needed available)) {more : Bytes}
    (hmore : offset + needed ≤ available + more.length) :
    Beyond (offset + needed) (readEventsOnto sizes acc (c.grow more)) := by
  fun_induction readEventsOnto sizes acc c with
  | case1 => cases h
  | case2 acc c hempty e' hword =>
    cases h
    have he := readEvent_of_word32 sizes hword
    exact readEventsOnto_beyond_of_past sizes ((sequential_readEvent sizes).grow_past he hmore)
  | case3 => cases h
  | case4 acc c hempty field c' hword hfield e' he =>
    cases h
    exact readEventsOnto_beyond_of_past sizes ((sequential_readEvent sizes).grow_past he hmore)
  | case5 acc c hempty field c' hword hfield e' c'' he hlt ih =>
    rw [readEventsOnto_eq, if_neg (not_isEmpty_grow hempty more), sequential_word32.grow hword]
    simp only [if_neg hfield]
    rw [(sequential_readEvent sizes).grow he]
    exact ih h

end Events

/-! ## The log -/

/-- The fields that are looked at first are those that the header begins with. -/
theorem readHeader_of_checkStart {c : Cursor} (hne : ¬ c.rest.isEmpty = true) {e : Fault}
    (h : checkStart c = .error e) : e = .missingHeader ∨ readHeader c = .error e := by
  rw [checkStart_eq, if_neg hne] at h
  cases hfield : word32 c with
  | error e' =>
    rw [hfield] at h
    cases h
    exact .inr (readHeader_of_preamble (readPreamble_of_field hfield))
  | ok x =>
    obtain ⟨field, next⟩ := x
    rw [hfield] at h
    simp only at h
    split at h
    · cases h
      exact .inl rfl
    · cases htype : word32 next with
      | error e' =>
        rw [htype] at h
        cases h
        exact .inr (readHeader_of_preamble (readPreamble_of_type hfield htype))
      | ok y =>
        rw [htype] at h
        simp only at h
        split at h
        · cases h
        · cases h
          exact .inl rfl

theorem checkStart_grow {c : Cursor} (h : checkStart c = .ok ()) (more : Bytes) :
    checkStart (c.grow more) = .ok () := by
  rw [checkStart_eq] at h
  split at h
  · cases h
  · next hne =>
    rw [checkStart_eq, if_neg (not_isEmpty_grow hne more)]
    cases hfield : word32 c with
    | error e' =>
      rw [hfield] at h
      cases h
    | ok x =>
      obtain ⟨field, next⟩ := x
      rw [hfield] at h
      rw [sequential_word32.grow hfield]
      simp only at h ⊢
      split at h
      · cases h
      · next hmarker =>
        rw [if_neg hmarker]
        cases htype : word32 next with
        | error e' =>
          rw [htype] at h
          cases h
        | ok y =>
          rw [htype] at h
          rw [sequential_word32.grow htype]
          exact h

theorem checkStart_grow_error {c : Cursor} (hne : ¬ c.rest.isEmpty = true) {e : Fault} (h : checkStart c = .error e)
    {more : Bytes} (hstands : e.Stands more.length) : checkStart (c.grow more) = .error (e.grown more.length) := by
  rw [checkStart_eq, if_neg hne] at h
  rw [checkStart_eq, if_neg (not_isEmpty_grow hne more)]
  cases hfield : word32 c with
  | error e' =>
    rw [hfield] at h
    cases h
    rw [sequential_word32.grow_error hfield hstands]
  | ok x =>
    obtain ⟨field, next⟩ := x
    rw [hfield] at h
    rw [sequential_word32.grow hfield]
    simp only at h ⊢
    split at h
    · next hmarker =>
      cases h
      rw [if_pos hmarker]
      rfl
    · next hmarker =>
      rw [if_neg hmarker]
      cases htype : word32 next with
      | error e' =>
        rw [htype] at h
        cases h
        rw [sequential_word32.grow_error htype hstands]
      | ok y =>
        rw [htype] at h
        rw [sequential_word32.grow htype]
        simp only at h ⊢
        split at h
        · cases h
        · next hother =>
          cases h
          rw [if_neg hother]
          rfl

/-- How a log that is refused was read up to there. -/
theorem decode_eq_error {bs : Bytes} {e : Fault} (h : decode bs = .error e) :
    checkStart (.start bs) = .error e ∨ checkStart (.start bs) = .ok () ∧ (readHeader (.start bs) = .error e ∨
      ∃ header next, readHeader (.start bs) = .ok (header, next) ∧
        readEventsOnto header.digestSizes [] next = .error e) := by
  rw [decode_eq] at h
  cases hstart : checkStart (.start bs) with
  | error e' =>
    rw [hstart] at h
    cases h
    exact .inl rfl
  | ok u =>
    rw [hstart] at h
    refine .inr ⟨rfl, ?_⟩
    cases hheader : readHeader (.start bs) with
    | error e' =>
      rw [hheader] at h
      cases h
      exact .inl rfl
    | ok x =>
      obtain ⟨header, next⟩ := x
      rw [hheader] at h
      refine .inr ⟨header, next, rfl, ?_⟩
      cases hevents : readEventsOnto header.digestSizes [] next with
      | error e' =>
        simp only [readEvents, hevents] at h
        cases h
        rfl
      | ok events =>
        simp only [readEvents, hevents] at h
        cases h

theorem not_isEmpty_start {bs : Bytes} (hne : bs ≠ []) : ¬ (Cursor.start bs).rest.isEmpty = true := by
  rw [List.isEmpty_iff]
  exact hne

theorem start_append (bs more : Bytes) : Cursor.start (bs ++ more) = (Cursor.start bs).grow more := rfl

theorem decode_grow_error {bs : Bytes} (hne : bs ≠ []) {e : Fault} (h : decode bs = .error e) {more : Bytes}
    (hstands : e.Stands more.length) : decode (bs ++ more) = .error (e.grown more.length) := by
  rw [decode_eq, start_append]
  rcases decode_eq_error h with hstart | ⟨hstart, hheader | ⟨header, next, hheader, hevents⟩⟩
  · rw [checkStart_grow_error (not_isEmpty_start hne) hstart hstands]
  · rw [checkStart_grow hstart, sequential_readHeader.grow_error hheader hstands]
  · rw [checkStart_grow hstart, sequential_readHeader.grow hheader]
    simp only [readEvents, readEventsOnto_grow_error _ hevents hstands]
    rfl

theorem decode_beyond_of_past {bs : Bytes} (hne : bs ≠ []) {o : Nat} (h : Past o (readHeader (.start bs))) :
    Beyond o (decode bs) := by
  intro offset needed available he
  rcases decode_eq_error he with hstart | ⟨-, hheader | ⟨header, next, hheader, hevents⟩⟩
  · rcases readHeader_of_checkStart (not_isEmpty_start hne) hstart with hmissing | hheader
    · cases hmissing
    · exact h.1 _ _ _ hheader
  · exact h.1 _ _ _ hheader
  · exact (readEventsOnto_beyond _ _ _).mono (h.2 _ _ hheader) _ _ _ hevents

theorem decode_grow_past {bs : Bytes} {offset needed available : Nat}
    (h : decode bs = .error (.truncatedRecord offset needed available)) {more : Bytes}
    (hmore : offset + needed ≤ available + more.length) : Beyond (offset + needed) (decode (bs ++ more)) := by
  have hne : bs ≠ [] := by
    rintro rfl
    cases h
  have hne' : bs ++ more ≠ [] := by simp [hne]
  have hpast (hheader : readHeader (.start bs) = .error (.truncatedRecord offset needed available)) :
      Beyond (offset + needed) (decode (bs ++ more)) :=
    decode_beyond_of_past hne' (sequential_readHeader.grow_past hheader hmore)
  rcases decode_eq_error h with hstart | ⟨hstart, hheader | ⟨header, next, hheader, hevents⟩⟩
  · rcases readHeader_of_checkStart (not_isEmpty_start hne) hstart with hmissing | hheader
    · cases hmissing
    · exact hpast hheader
  · exact hpast hheader
  · rw [decode_eq, start_append, checkStart_grow hstart, sequential_readHeader.grow hheader]
    exact (readEventsOnto_grow_past _ hevents hmore).map _

/-- A log that ends with its bytes goes on with the events of the bytes behind it, or with a refusal of one of them. -/
theorem decode_grow_of_layOut {h : HeaderLayout} {es : List EventLayout} (hh : h.Fits)
    (hes : ∀ e ∈ es, e.Fits (lastSize h.declarations)) (more : Bytes) :
    (∃ events, decode (layOut h es ++ more) =
        .ok { ofLayout h es with events := (ofLayout h es).events ++ events }) ∨
      ∃ e, decode (layOut h es ++ more) = .error e ∧ Refusal (layOut h es).length (layOut h es ++ more).length e := by
  rw [decode_append hh hes, List.length_append]
  cases hread : readEvents (.ofList h.declarations) ⟨(layOut h es).length, more⟩ with
  | ok events => exact .inl ⟨events, rfl⟩
  | error e => exact .inr ⟨e, rfl, readEventsOnto_refusal _ hread⟩

/-- **Online decoding.** With more bytes at its end a log that has an end marker is decoded as before, and one without
goes on behind its last event. A refusal stands, unless it was for missing bytes and these are there now: then all that
was asked for up to there has been read. -/
theorem decode_online (bs more : Bytes) :
    (∀ log, decode bs = .ok log →
      (endBytes <+: bs.drop log.extent → decode (bs ++ more) = .ok log) ∧
      (¬ endBytes <+: bs.drop log.extent →
        (∃ events, decode (bs ++ more) = .ok { log with events := log.events ++ events }) ∨
        (∃ offset needed available, decode (bs ++ more) = .error (.truncatedRecord offset needed available) ∧
          bs.length ≤ offset) ∨
        ∃ algorithm, decode (bs ++ more) = .error (.unknownAlgorithm algorithm))) ∧
      (∀ algorithm, decode bs = .error (.unknownAlgorithm algorithm) →
        decode (bs ++ more) = .error (.unknownAlgorithm algorithm)) ∧
      (bs ≠ [] → decode bs = .error .missingHeader → decode (bs ++ more) = .error .missingHeader) ∧
      ∀ offset needed available, decode bs = .error (.truncatedRecord offset needed available) →
        (available + more.length < offset + needed →
          decode (bs ++ more) = .error (.truncatedRecord offset needed (available + more.length))) ∧
        (¬ available + more.length < offset + needed → ∀ offset' needed' available',
          decode (bs ++ more) = .error (.truncatedRecord offset' needed' available') → offset + needed ≤ offset') := by
  have hne {e : Fault} (he : decode bs = .error e) (hmissing : e ≠ .missingHeader) : bs ≠ [] := by
    rintro rfl
    cases he
    exact hmissing rfl
  refine ⟨fun log hd => ?_, fun algorithm he => ?_, fun hne he => ?_, fun offset needed available he => ⟨?_, ?_⟩⟩
  · obtain ⟨h, es, tail, hh, hes, htail, rfl, rfl⟩ := exists_layout_of_decode hd
    rw [extent_ofLayout, List.drop_left]
    constructor
    · intro hmarker
      have hended : Ended (tail ++ more) := .inr (hmarker.trans (List.prefix_append _ _))
      rw [List.append_assoc, decode_append hh hes, readEvents_ended _ hended]
      simp [Except.map, ofLayout]
    · intro hmarker
      obtain rfl : tail = [] := htail.resolve_right hmarker
      rw [List.append_nil]
      rcases decode_grow_of_layOut hh hes more with hok | ⟨e, he, hrefusal⟩
      · exact .inl hok
      · cases hrefusal with
        | short ho _ _ => exact .inr (.inl ⟨_, _, _, he, ho⟩)
        | unknown algorithm => exact .inr (.inr ⟨algorithm, he⟩)
  · exact decode_grow_error (hne he (by simp)) he trivial
  · exact decode_grow_error hne he trivial
  · exact fun hshort => decode_grow_error (hne he (by simp)) he hshort
  · exact fun hlong => decode_grow_past he (Nat.not_lt.1 hlong)

theorem decode_online_sample :
    (decode sampleBytes = .ok sampleLog ∧ endBytes <+: sampleBytes.drop sampleLog.extent ∧
      decode (sampleBytes ++ [1, 2]) = .ok sampleLog) ∧
    (decode sampleLog.body = .ok sampleLog ∧ ¬ endBytes <+: sampleLog.body.drop sampleLog.extent ∧
      decode (sampleLog.body ++ [1, 2]) ≠ .error .missingHeader) ∧
    (decode (sampleHeader.bytes ++ [1, 0, 0, 0, 2, 0, 0, 0, 1, 0, 0, 0, 99, 0]) = .error (.unknownAlgorithm 99) ∧
      decode (sampleHeader.bytes ++ [1, 0, 0, 0, 2, 0, 0, 0, 1, 0, 0, 0, 99, 0] ++ [1, 2]) =
        .error (.unknownAlgorithm 99)) ∧
    (decode endBytes = .error .missingHeader ∧ decode (endBytes ++ [1, 2]) = .error .missingHeader) ∧
    decode [1, 0, 0, 0, 3] = .error (.truncatedRecord 4 4 5) ∧
      decode ([1, 0, 0, 0, 3] ++ [1, 2]) = .error (.truncatedRecord 4 4 7) ∧
      ∀ offset needed available,
        decode ([1, 0, 0, 0, 3] ++ [0, 0, 0]) = .error (.truncatedRecord offset needed available) → 8 ≤ offset := by
  have hmarker : endBytes <+: sampleBytes.drop sampleLog.extent := by decide
  have hopen : decode sampleLog.body = .ok sampleLog := by cbv
  have hnone : ¬ endBytes <+: sampleLog.body.drop sampleLog.extent := by decide
  have hunknown : decode (sampleHeader.bytes ++ [1, 0, 0, 0, 2, 0, 0, 0, 1, 0, 0, 0, 99, 0]) =
      .error (.unknownAlgorithm 99) := by cbv
  have hmissing : decode endBytes = .error .missingHeader := by cbv
  have hshort : decode [1, 0, 0, 0, 3] = .error (.truncatedRecord 4 4 5) := by cbv
  refine ⟨⟨decode_sampleBytes, hmarker, ?_⟩, ⟨hopen, hnone, ?_⟩, ⟨hunknown, ?_⟩, ⟨hmissing, ?_⟩, hshort, ?_, ?_⟩
  · exact ((decode_online sampleBytes [1, 2]).1 sampleLog decode_sampleBytes).1 hmarker
  · rcases ((decode_online sampleLog.body [1, 2]).1 sampleLog hopen).2 hnone with
      ⟨_, h⟩ | ⟨_, _, _, h, -⟩ | ⟨_, h⟩ <;> simp [h]
  · exact (decode_online _ [1, 2]).2.1 99 hunknown
  · exact (decode_online endBytes [1, 2]).2.2.1 (by decide) hmissing
  · exact ((decode_online [1, 0, 0, 0, 3] [1, 2]).2.2.2 4 4 5 hshort).1 (by decide)
  · exact ((decode_online [1, 0, 0, 0, 3] [0, 0, 0]).2.2.2 4 4 5 hshort).2 (by decide)

end EventLog

end Attestation
