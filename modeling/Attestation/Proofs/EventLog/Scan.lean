import Attestation.Proofs.DigestTable
import Attestation.Proofs.EventLog.Grammar

/-!
# Scanning a log

* `Ended tail` : a log that goes on with `tail` is over: no byte is left, or the next ones are the end marker;
* `readEvents_append` : laid-out events are read one by one, and what follows them is read as if it stood alone;
* `decode_append` : the same of a whole log;
* `exists_layout_of_decode` : whatever is decoded was laid out.
-/

namespace Attestation.EventLog
open DigestTable (lastSize get?_ofList)

/-! ## The end of a log -/

/-- The bytes of the end marker. -/
def endBytes : Bytes := List.replicate 4 0xFF

theorem le32_endMarker : le32 endMarker = endBytes := by decide

/-- There is no further record in `tail`. -/
def Ended (tail : Bytes) : Prop := tail = [] ∨ endBytes <+: tail

/-! ## Readers on laid-out bytes -/

theorem Parses.of_rest {α : Type} {r : Reader α} {W : α → Bytes → Prop} (hr : Parses r W) {c : Cursor} {a : α}
    {p rest : Bytes} (hp : W a p) (h : c.rest = p ++ rest) : r c = .ok (a, ⟨c.offset + p.length, rest⟩) :=
  (hr _ _ _).2 ⟨p, hp, h, rfl⟩

theorem word32_of_rest {c : Cursor} {n : UInt32} {rest : Bytes} (h : c.rest = le32 n ++ rest) :
    word32 c = .ok (n, ⟨c.offset + 4, rest⟩) := by
  rw [parses_word32.of_rest rfl h, length_le32]

theorem isEmpty_of_rest {c : Cursor} {n : UInt32} {rest : Bytes} (h : c.rest = le32 n ++ rest) :
    ¬ c.rest.isEmpty = true := by
  rw [h]
  exact Bool.false_ne_true

theorem HeaderLayout.bytes_eq (h : HeaderLayout) : ∃ s, h.bytes = le32 h.registerField ++ (le32 h.eventType ++ s) := by
  unfold HeaderLayout.bytes
  simp only [List.append_assoc]
  exact ⟨_, rfl⟩

theorem EventLayout.bytes_eq (e : EventLayout) : ∃ s, e.bytes = le32 e.registerField ++ s := by
  unfold EventLayout.bytes
  simp only [List.append_assoc]
  exact ⟨_, rfl⟩

/-! ## Events -/

section Events
variable (sizes : DigestTable)

/-- One turn of the scan. -/
theorem readEventsOnto_eq (acc : List Event) (c : Cursor) :
    readEventsOnto sizes acc c =
      if c.rest.isEmpty then .ok acc.reverse
      else match word32 c with
        | .error e => .error e
        | .ok (field, _) =>
          if field = endMarker then .ok acc.reverse
          else match readEvent sizes c with
            | .error e => .error e
            | .ok (e, c') => readEventsOnto sizes (e :: acc) c' := by
  rw [readEventsOnto]
  split
  · rfl
  · split
    · simp [*]
    · split
      · simp [*]
      · split <;> simp [*]

theorem readEventsOnto_eq_map (acc : List Event) (c : Cursor) :
    readEventsOnto sizes acc c = (readEvents sizes c).map (acc.reverse ++ ·) := by
  -- for any events in front of `acc`, since each turn of the scan puts one more there
  have onto : ∀ new, readEventsOnto sizes (new ++ acc) c = (readEventsOnto sizes new c).map (acc.reverse ++ ·) := by
    intro new
    fun_induction readEventsOnto sizes new c with
    | case1 new c hempty =>
      rw [readEventsOnto_eq, if_pos hempty]
      simp [Except.map]
    | case2 new c hempty e hword =>
      rw [readEventsOnto_eq, if_neg hempty, hword]
      rfl
    | case3 new c hempty c' hword =>
      rw [readEventsOnto_eq, if_neg hempty, hword]
      simp [Except.map]
    | case4 new c hempty field c' hword hfield e he =>
      rw [readEventsOnto_eq, if_neg hempty, hword, he]
      simp [hfield, Except.map]
    | case5 new c hempty field c' hword hfield e c'' he hlt ih =>
      rw [readEventsOnto_eq, if_neg hempty, hword, he]
      simpa [hfield] using ih
  exact onto []

theorem readEvents_ended {c : Cursor} (h : Ended c.rest) : readEvents sizes c = .ok [] := by
  rw [readEvents, readEventsOnto_eq]
  rcases h with hnil | ⟨junk, hjunk⟩
  · rw [hnil]
    rfl
  · rw [← le32_endMarker] at hjunk
    rw [if_neg (isEmpty_of_rest hjunk.symm), word32_of_rest hjunk.symm]
    simp

theorem readEvents_cons {c : Cursor} {e : EventLayout} (he : e.Fits sizes.get?) {tail : Bytes}
    (h : c.rest = e.bytes ++ tail) :
    readEvents sizes c = (readEvents sizes ⟨c.offset + e.bytes.length, tail⟩).map (e.read :: ·) := by
  obtain ⟨hmarker, hsized⟩ := he
  obtain ⟨s, hs⟩ := e.bytes_eq
  have hfield : c.rest = le32 e.registerField ++ (s ++ tail) := by rw [h, hs, List.append_assoc]
  rw [readEvents, readEventsOnto_eq, if_neg (isEmpty_of_rest hfield), word32_of_rest hfield,
    (parses_readEvent sizes).of_rest ⟨e, hsized, rfl, rfl⟩ h]
  simp only [if_neg hmarker]
  exact readEventsOnto_eq_map sizes [e.read] _

/-- **Events in front of anything** are read one by one, and the rest is read as if it stood alone. -/
theorem readEvents_append {es : List EventLayout} (hes : ∀ e ∈ es, e.Fits sizes.get?) {c : Cursor} {tail : Bytes}
    (h : c.rest = es.flatMap EventLayout.bytes ++ tail) :
    readEvents sizes c =
      (readEvents sizes ⟨c.offset + (es.flatMap EventLayout.bytes).length, tail⟩).map
        (es.map EventLayout.read ++ ·) := by
  induction es generalizing c with
  | nil =>
    have hc : readEvents sizes c = readEvents sizes ⟨c.offset, tail⟩ := by rw [← show c.rest = tail from h]
    rw [hc, List.flatMap_nil, List.length_nil, Nat.add_zero]
    cases readEvents sizes ⟨c.offset, tail⟩ <;> rfl
  | cons e es ih =>
    rw [List.flatMap_cons, List.append_assoc] at h
    rw [readEvents_cons sizes (hes e (by simp)) h, ih (fun x hx => hes x (by simp [hx])) rfl, List.flatMap_cons,
      List.length_append, ← Nat.add_assoc]
    generalize readEvents sizes ⟨c.offset + e.bytes.length + _, tail⟩ = rest
    cases rest <;> rfl

/-- The field that is looked at first is the one that the event begins with. -/
theorem registerField_ne_of_word32 {c c' : Cursor} {l : EventLayout} {rest : Bytes} {field : UInt32}
    (hrest : c.rest = l.bytes ++ rest) (hword : word32 c = .ok (field, c')) (hfield : field ≠ endMarker) :
    l.registerField ≠ endMarker := by
  obtain ⟨s, hs⟩ := l.bytes_eq
  rw [word32_of_rest (by rw [hrest, hs, List.append_assoc])] at hword
  cases hword
  exact hfield

theorem exists_layouts_of_readEventsOnto {acc : List Event} {c : Cursor} {events : List Event}
    (h : readEventsOnto sizes acc c = .ok events) :
    ∃ es : List EventLayout, ∃ tail, (∀ e ∈ es, e.Fits sizes.get?) ∧ Ended tail ∧
      c.rest = es.flatMap EventLayout.bytes ++ tail ∧ events = acc.reverse ++ es.map EventLayout.read := by
  fun_induction readEventsOnto sizes acc c with
  | case1 acc c hempty =>
    cases h
    exact ⟨[], [], by simp, .inl rfl, by simpa using hempty, by simp⟩
  | case2 => cases h
  | case3 acc c hempty c' hword =>
    cases h
    obtain ⟨_, rfl, hrest, -⟩ := (parses_word32 c c' endMarker).1 hword
    exact ⟨[], c.rest, by simp, .inr ⟨c'.rest, by rw [hrest, le32_endMarker]⟩, rfl, by simp⟩
  | case4 => cases h
  | case5 acc c hempty field c' hword hfield e c'' he hlt ih =>
    obtain ⟨_, ⟨l, hl, rfl, rfl⟩, hrest, -⟩ := (parses_readEvent sizes c c'' e).1 he
    obtain ⟨es, tail, hes, htail, hrest', rfl⟩ := ih h
    have hmarker := registerField_ne_of_word32 hrest hword hfield
    refine ⟨l :: es, tail, List.forall_mem_cons.2 ⟨⟨hmarker, hl⟩, hes⟩, htail, ?_, ?_⟩
    · rw [hrest, hrest', List.flatMap_cons, List.append_assoc]
    · simp

/-- **Whatever events are read** were laid out, up to the end of the log. -/
theorem exists_layouts_of_readEvents {c : Cursor} {events : List Event} (h : readEvents sizes c = .ok events) :
    ∃ es : List EventLayout, ∃ tail, (∀ e ∈ es, e.Fits sizes.get?) ∧ Ended tail ∧
      c.rest = es.flatMap EventLayout.bytes ++ tail ∧ events = es.map EventLayout.read :=
  exists_layouts_of_readEventsOnto sizes h

end Events

/-! ## The log -/

theorem checkStart_eq (c : Cursor) :
    checkStart c =
      if c.rest.isEmpty then .error .missingHeader
      else match word32 c with
        | .error e => .error e
        | .ok (field, next) =>
          if field = endMarker then .error .missingHeader
          else match word32 next with
            | .error e => .error e
            | .ok (eventType, _) => if eventType = noAction then .ok () else .error .missingHeader := by
  unfold checkStart
  split
  · rfl
  · cases word32 c with
    | error e => rfl
    | ok x =>
      obtain ⟨field, next⟩ := x
      by_cases hfield : field = endMarker
      · simp [hfield, Bind.bind, Except.bind, throw, throwThe, MonadExceptOf.throw]
      · cases hnext : word32 next with
        | error e => simp [hfield, hnext, Bind.bind, Except.bind]
        | ok y => simp [hfield, hnext, Bind.bind, Except.bind]; split <;> rfl

theorem decode_eq (bs : Bytes) :
    decode bs =
      match checkStart (.start bs) with
      | .error e => .error e
      | .ok () => match readHeader (.start bs) with
        | .error e => .error e
        | .ok (header, next) => (readEvents header.digestSizes next).map fun events => { header, events } := by
  unfold decode
  simp only [Bind.bind, Except.bind]
  cases checkStart (.start bs) with
  | error e => rfl
  | ok u =>
    cases readHeader (.start bs) with
    | error e => rfl
    | ok x =>
      obtain ⟨header, next⟩ := x
      simp only
      cases readEvents header.digestSizes next <;> rfl

theorem checkStart_eq_ok_iff {c : Cursor} {h : HeaderLayout} {tail : Bytes} (hrest : c.rest = h.bytes ++ tail) :
    checkStart c = .ok () ↔ h.registerField ≠ endMarker ∧ h.eventType = noAction := by
  obtain ⟨s, hs⟩ := h.bytes_eq
  have hfield : c.rest = le32 h.registerField ++ (le32 h.eventType ++ (s ++ tail)) := by
    rw [hrest, hs, List.append_assoc, List.append_assoc]
  rw [checkStart_eq, if_neg (isEmpty_of_rest hfield), word32_of_rest hfield]
  simp only [word32_of_rest (c := ⟨c.offset + 4, le32 h.eventType ++ (s ++ tail)⟩) rfl]
  by_cases hmarker : h.registerField = endMarker
  · simp [hmarker]
  · by_cases htype : h.eventType = noAction <;> simp [hmarker, htype]

theorem HeaderLayout.get?_read (h : HeaderLayout) : h.read.digestSizes.get? = lastSize h.declarations := get?_ofList _

/-- **A log in front of anything** is decoded record by record, and the rest is read as if it stood alone. -/
theorem decode_append {h : HeaderLayout} {es : List EventLayout} (hh : h.Fits)
    (hes : ∀ e ∈ es, e.Fits (lastSize h.declarations)) (tail : Bytes) :
    decode (layOut h es ++ tail) =
      (readEvents (.ofList h.declarations) ⟨(layOut h es).length, tail⟩).map
        fun more => { header := h.read, events := es.map EventLayout.read ++ more } := by
  have hrest : (Cursor.start (layOut h es ++ tail)).rest = h.bytes ++ (es.flatMap EventLayout.bytes ++ tail) := by
    simp [Cursor.start, layOut]
  have hread : readHeader (.start (layOut h es ++ tail)) =
      .ok (h.read, ⟨h.bytes.length, es.flatMap EventLayout.bytes ++ tail⟩) := by
    rw [parses_readHeader.of_rest ⟨h, hh.2.2, rfl, rfl⟩ hrest]
    simp [Cursor.start]
  have hevents : readEvents (.ofList h.declarations) ⟨h.bytes.length, es.flatMap EventLayout.bytes ++ tail⟩ =
      (readEvents (.ofList h.declarations) ⟨h.bytes.length + (es.flatMap EventLayout.bytes).length, tail⟩).map
        (es.map EventLayout.read ++ ·) :=
    readEvents_append _ (by rwa [get?_ofList]) rfl
  rw [decode_eq, (checkStart_eq_ok_iff hrest).2 ⟨hh.1, hh.2.1⟩, hread]
  simp only [show h.read.digestSizes = .ofList h.declarations from rfl]
  rw [hevents, ← List.length_append, ← layOut]
  cases readEvents (.ofList h.declarations) ⟨(layOut h es).length, tail⟩ <;> rfl

/-- **Whatever is decoded** was laid out. -/
theorem exists_layout_of_decode {bs : Bytes} {log : EventLog} (hd : decode bs = .ok log) :
    ∃ (h : HeaderLayout) (es : List EventLayout) (tail : Bytes), h.Fits ∧
      (∀ e ∈ es, e.Fits (lastSize h.declarations)) ∧ Ended tail ∧ bs = layOut h es ++ tail ∧ log = ofLayout h es := by
  rw [decode_eq] at hd
  split at hd
  · cases hd
  · next hstart =>
    split at hd
    · cases hd
    · next header next hheader =>
      obtain ⟨_, ⟨h, hsized, rfl, rfl⟩, hrest, -⟩ := (parses_readHeader _ _ _).1 hheader
      cases hevents : readEvents h.read.digestSizes next with
      | error e =>
        rw [hevents] at hd
        cases hd
      | ok events =>
        rw [hevents] at hd
        cases hd
        obtain ⟨es, tail, hes, htail, hnext, rfl⟩ := exists_layouts_of_readEvents _ hevents
        obtain ⟨hmarker, htype⟩ := (checkStart_eq_ok_iff hrest).1 hstart
        refine ⟨h, es, tail, ⟨hmarker, htype, hsized⟩, ?_, htail, ?_, rfl⟩
        · rwa [← h.get?_read]
        · rw [layOut, List.append_assoc, ← hnext, ← hrest]
          rfl

end Attestation.EventLog
