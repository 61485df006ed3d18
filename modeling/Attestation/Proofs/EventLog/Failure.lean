import Attestation.Proofs.EventLog.Online
import Attestation.Proofs.EventLog.Undeclared

/-!
# Why a log is refused

* `Headless bs` : there is no header at the beginning;
* `decode_error_cases` : otherwise a log is refused for the first record behind those that can be read;
* `Breaks bs o` : at offset `o`, behind whole records, there is one that is not whole;
* `decode_failure` : which of its errors a log is refused with, for each of them.
-/

namespace Attestation.EventLog
open DigestTable (lastSize get?_ofList)

/-! ## Events -/

section Events
variable {sizes : DigestTable} {c : Cursor}

theorem not_ended_of_word32 (hempty : ¬ c.rest.isEmpty = true) (hmarker : ∀ c', word32 c ≠ .ok (endMarker, c')) :
    ¬ Ended c.rest := by
  rintro (hnil | ⟨junk, hjunk⟩)
  · exact hempty (List.isEmpty_iff.2 hnil)
  · rw [← le32_endMarker] at hjunk
    exact hmarker _ (word32_of_rest hjunk.symm)

/-- An event that is refused stops the scan. -/
theorem readEvents_of_readEvent_error {e : Fault} (hended : ¬ Ended c.rest) (h : readEvent sizes c = .error e) :
    readEvents sizes c = .error e := by
  have hempty : ¬ c.rest.isEmpty = true := fun hnil => hended (.inl (List.isEmpty_iff.1 hnil))
  rw [readEvents, readEventsOnto_eq, if_neg hempty]
  cases hword : word32 c with
  | error e' =>
    rw [readEvent_of_word32 sizes hword] at h
    cases h
    rfl
  | ok x =>
    obtain ⟨field, c'⟩ := x
    have hfield : field ≠ endMarker := by
      rintro rfl
      obtain ⟨_, rfl, hrest, -⟩ := (parses_word32 c c' endMarker).1 hword
      exact hended (.inr ⟨c'.rest, by rw [hrest, le32_endMarker]⟩)
    simp only [if_neg hfield, h]

/-- A scan is stopped by one event, behind others that are read. -/
theorem exists_layouts_of_readEventsOnto_error {acc : List Event} {e : Fault}
    (h : readEventsOnto sizes acc c = .error e) :
    ∃ (es : List EventLayout) (tail : Bytes), (∀ x ∈ es, x.Fits sizes.get?) ∧
      c.rest = es.flatMap EventLayout.bytes ++ tail ∧ ¬ Ended tail ∧
      readEvent sizes ⟨c.offset + (es.flatMap EventLayout.bytes).length, tail⟩ = .error e := by
  fun_induction readEventsOnto sizes acc c with
  | case1 => cases h
  | case2 acc c hempty e' hword =>
    cases h
    have hended : ¬ Ended c.rest := not_ended_of_word32 hempty (by simp [hword])
    exact ⟨[], c.rest, by simp, rfl, hended, readEvent_of_word32 sizes hword⟩
  | case3 => cases h
  | case4 acc c hempty field c' hword hfield e' he =>
    cases h
    have hended : ¬ Ended c.rest := not_ended_of_word32 hempty (by simp [hword, hfield])
    exact ⟨[], c.rest, by simp, rfl, hended, he⟩
  | case5 acc c hempty field c' hword hfield e' c'' he hlt ih =>
    obtain ⟨_, ⟨l, hl, rfl, rfl⟩, hrest, hoffset⟩ := (parses_readEvent sizes c c'' e').1 he
    obtain ⟨es, tail, hes, hrest', hended, herror⟩ := ih h
    have hmarker := registerField_ne_of_word32 hrest hword hfield
    refine ⟨l :: es, tail, List.forall_mem_cons.2 ⟨⟨hmarker, hl⟩, hes⟩, ?_, hended, ?_⟩
    · rw [hrest, hrest', List.flatMap_cons, List.append_assoc]
    · rw [List.flatMap_cons, List.length_append, ← Nat.add_assoc, ← hoffset]
      exact herror

end Events

/-! ## The beginning of a log -/

/-- There is no byte, or the first number is an end marker, or the second one is not the type of a header. -/
def Headless (bs : Bytes) : Prop :=
  bs = [] ∨ endBytes <+: bs ∨ ∃ field eventType s, bs = le32 field ++ (le32 eventType ++ s) ∧ eventType ≠ noAction

theorem checkStart_eq_missingHeader_iff (bs : Bytes) :
    checkStart (.start bs) = .error .missingHeader ↔ Headless bs := by
  rw [checkStart_eq]
  constructor
  · intro h
    split at h
    · next hempty => exact .inl (List.isEmpty_iff.1 hempty)
    · cases hfield : word32 (.start bs) with
      | error e =>
        rw [hfield] at h
        cases h
        cases sequential_word32.refusal hfield
      | ok x =>
        obtain ⟨field, next⟩ := x
        obtain ⟨_, rfl, hrest, -⟩ := (parses_word32 _ next field).1 hfield
        simp only [hfield] at h
        split at h
        · next hmarker => exact .inr (.inl ⟨next.rest, by rw [← le32_endMarker, ← hmarker, ← hrest]; rfl⟩)
        · cases htype : word32 next with
          | error e =>
            rw [htype] at h
            cases h
            cases sequential_word32.refusal htype
          | ok y =>
            obtain ⟨eventType, last⟩ := y
            obtain ⟨_, rfl, hnext, -⟩ := (parses_word32 _ last eventType).1 htype
            simp only [htype] at h
            split at h
            · cases h
            · next hother => exact .inr (.inr ⟨field, eventType, last.rest, by rw [← hnext, ← hrest]; rfl, hother⟩)
  · rintro (rfl | ⟨s, hs⟩ | ⟨field, eventType, s, rfl, hother⟩)
    · rfl
    · have hfield : (Cursor.start bs).rest = le32 endMarker ++ s := by
        rw [le32_endMarker, hs]
        rfl
      rw [if_neg (isEmpty_of_rest hfield), word32_of_rest hfield]
      simp
    · rw [if_neg (isEmpty_of_rest (c := .start _) rfl), word32_of_rest (c := .start _) rfl]
      simp only [word32_of_rest (c := ⟨_, le32 eventType ++ s⟩) rfl, if_neg hother]
      split <;> rfl

/-! ## The log -/

/-- A log that begins with the type of a header is refused for the header, or for one event behind others that are
read. -/
theorem decode_error_cases {bs : Bytes} {e : Fault} (hd : decode bs = .error e) :
    (Headless bs ∧ e = .missingHeader) ∨ (¬ Headless bs ∧ readHeader (.start bs) = .error e) ∨
      ∃ (h : HeaderLayout) (es : List EventLayout) (tail : Bytes), h.Fits ∧
        (∀ x ∈ es, x.Fits (lastSize h.declarations)) ∧ bs = layOut h es ++ tail ∧ ¬ Ended tail ∧
        readEvent (.ofList h.declarations) ⟨(layOut h es).length, tail⟩ = .error e := by
  rcases decode_eq_error hd with hstart | ⟨hstart, hheader | ⟨header, next, hheader, hevents⟩⟩
  · by_cases hmissing : e = .missingHeader
    · rw [hmissing, checkStart_eq_missingHeader_iff] at hstart
      exact .inl ⟨hstart, hmissing⟩
    · have hhead : ¬ Headless bs := by
        rw [← checkStart_eq_missingHeader_iff, hstart]
        simpa using hmissing
      have hne : ¬ (Cursor.start bs).rest.isEmpty = true := not_isEmpty_start fun hnil => hhead (.inl hnil)
      exact .inr (.inl ⟨hhead, (readHeader_of_checkStart hne hstart).resolve_left hmissing⟩)
  · have hhead : ¬ Headless bs := by
      rw [← checkStart_eq_missingHeader_iff, hstart]
      simp
    exact .inr (.inl ⟨hhead, hheader⟩)
  · obtain ⟨_, ⟨h, hsized, rfl, rfl⟩, hrest, hoffset⟩ := (parses_readHeader _ _ _).1 hheader
    obtain ⟨es, tail, hes, hnext, hended, herror⟩ := exists_layouts_of_readEventsOnto_error hevents
    obtain ⟨hmarker, htype⟩ := (checkStart_eq_ok_iff hrest).1 hstart
    rw [h.get?_read] at hes
    have hend : next.offset + (es.flatMap EventLayout.bytes).length = (layOut h es).length := by
      rw [hoffset, layOut, List.length_append, Cursor.start, Nat.zero_add]
    rw [hend] at herror
    refine .inr (.inr ⟨h, es, tail, ⟨hmarker, htype, hsized⟩, hes, ?_, hended, herror⟩)
    rw [layOut, List.append_assoc, ← hnext, ← hrest]
    rfl

/-- An event that is refused behind whole records is what the log is refused for. -/
theorem decode_of_readEvent_error {h : HeaderLayout} {es : List EventLayout} (hh : h.Fits)
    (hes : ∀ x ∈ es, x.Fits (lastSize h.declarations)) {tail : Bytes} (hended : ¬ Ended tail) {e : Fault}
    (herror : readEvent (.ofList h.declarations) ⟨(layOut h es).length, tail⟩ = .error e) :
    decode (layOut h es ++ tail) = .error e := by
  rw [decode_append hh hes, readEvents_of_readEvent_error hended herror]
  rfl

/-- At offset `o` of the log, behind whole records, there is one that is not whole: the header, or an event or an end
marker behind the header and some events. -/
inductive Breaks (bs : Bytes) : Nat → Prop where
  | header (hbs : ∀ h : HeaderLayout, h.Fits → ¬ h.bytes <+: bs) : Breaks bs 0
  | record {h : HeaderLayout} {es : List EventLayout} {tail : Bytes} (hh : h.Fits)
      (hes : ∀ x ∈ es, x.Fits (lastSize h.declarations)) (hbs : bs = layOut h es ++ tail) (hended : ¬ Ended tail)
      (htail : ∀ x : EventLayout, x.Fits (lastSize h.declarations) → ¬ x.bytes <+: tail) :
      Breaks bs (layOut h es).length

theorem decode_eq_missingHeader_iff (bs : Bytes) : decode bs = .error .missingHeader ↔ Headless bs := by
  constructor
  · intro h
    rcases decode_error_cases h with ⟨hhead, -⟩ | ⟨-, hheader⟩ | ⟨_, _, _, -, -, -, -, herror⟩
    · exact hhead
    · cases sequential_readHeader.refusal hheader
    · cases (sequential_readEvent _).refusal herror
  · intro hhead
    rw [decode_eq, (checkStart_eq_missingHeader_iff bs).2 hhead]

/-- The bytes end the log exactly when the opening in front of them is an end marker. -/
theorem EventOpening.ended_iff (o : EventOpening) (rest : Bytes) :
    Ended (o.bytes ++ rest) ↔ o.registerField = endMarker := by
  obtain ⟨s, hs⟩ : ∃ s, o.bytes ++ rest = le32 o.registerField ++ s := by
    unfold EventOpening.bytes
    simp only [List.append_assoc]
    exact ⟨_, rfl⟩
  rw [Ended, hs, endBytes_prefix_iff]
  simp [le32, Bytes.ofNatLE]

theorem decode_eq_unknownAlgorithm_iff (bs : Bytes) (a : UInt16) :
    decode bs = .error (.unknownAlgorithm a) ↔
      ∃ (h : HeaderLayout) (es : List EventLayout) (o : EventOpening) (rest : Bytes), h.Fits ∧
        (∀ e ∈ es, e.Fits (lastSize h.declarations)) ∧ o.Fits (lastSize h.declarations) ∧
        lastSize h.declarations a = none ∧ bs = layOut h es ++ (o.bytes ++ (le16 a ++ rest)) := by
  constructor
  · intro hd
    rcases decode_error_cases hd with ⟨-, hmissing⟩ | ⟨-, hheader⟩ | ⟨h, es, tail, hh, hes, rfl, hended, herror⟩
    · cases hmissing
    · cases silent_iff.1 silent_readHeader _ a hheader
    · obtain ⟨_, ⟨o, hsized, hnone, rfl⟩, rest, rfl⟩ := (meets_readEvent _ _ a).1 herror
      rw [get?_ofList] at hsized hnone
      rw [List.append_assoc] at hended ⊢
      exact ⟨h, es, o, rest, hh, hes, ⟨mt (o.ended_iff _).2 hended, hsized⟩, hnone, rfl⟩
  · rintro ⟨h, es, o, rest, hh, hes, ⟨hmarker, hsized⟩, hnone, rfl⟩
    rw [← get?_ofList] at hsized hnone
    refine decode_of_readEvent_error hh hes (mt (o.ended_iff _).1 hmarker) ((meets_readEvent _ _ a).2 ?_)
    exact ⟨o.bytes ++ le16 a, ⟨o, hsized, hnone, rfl⟩, rest, List.append_assoc _ _ _⟩

/-- What bytes are missing for is a record that is not whole. -/
theorem exists_breaks {bs : Bytes} {offset needed available : Nat}
    (hd : decode bs = .error (.truncatedRecord offset needed available)) : ∃ o, Breaks bs o := by
  rcases decode_error_cases hd with ⟨-, hmissing⟩ | ⟨-, hheader⟩ | ⟨h, es, tail, hh, hes, hbs, hended, herror⟩
  · cases hmissing
  · refine ⟨0, .header fun l hl hp => ?_⟩
    obtain ⟨rest, hrest⟩ := hp
    rw [parses_readHeader.of_rest (c := .start bs) ⟨l, hl.2.2, rfl, rfl⟩ hrest.symm] at hheader
    cases hheader
  · refine ⟨_, .record hh hes hbs hended fun l hl hp => ?_⟩
    obtain ⟨rest, hrest⟩ := hp
    rw [← get?_ofList] at hl
    rw [(parses_readEvent _).of_rest (c := ⟨_, tail⟩) ⟨l, hl.2, rfl, rfl⟩ hrest.symm] at herror
    cases herror

theorem Breaks.le_offset {bs : Bytes} {o : Nat} (ho : Breaks bs o) {offset needed available : Nat}
    (h : decode bs = .error (.truncatedRecord offset needed available)) : o ≤ offset := by
  cases ho with
  | header => exact Nat.zero_le _
  | @record l es tail hh hes hbs =>
    rw [hbs, decode_append hh hes] at h
    exact ((readEventsOnto_beyond _ [] _).map _) _ _ _ h

theorem decode_refusal {bs : Bytes} {e : Fault} (hd : decode bs = .error e) :
    e = .missingHeader ∨ Refusal 0 bs.length e := by
  rcases decode_error_cases hd with ⟨-, hmissing⟩ | ⟨-, hheader⟩ | ⟨h, es, tail, hh, hes, rfl, hended, herror⟩
  · exact .inl hmissing
  · have hrefusal := sequential_readHeader.refusal hheader
    rw [Cursor.total, Cursor.start, Nat.zero_add] at hrefusal
    exact .inr hrefusal
  · have hrefusal := (sequential_readEvent _).refusal herror
    rw [Cursor.total, ← List.length_append] at hrefusal
    exact .inr (hrefusal.mono (Nat.zero_le _))

/-- **The reason for a refusal.** A log is refused for a missing header exactly when it does not begin with one, and for
an algorithm exactly when it is not declared and the event behind whole records names it behind whole digests. In all
other cases a record is not whole, and there the log ends before the bytes that are asked for. -/
theorem decode_failure (bs : Bytes) :
    (decode bs = .error .missingHeader ↔ Headless bs) ∧
      (∀ a, decode bs = .error (.unknownAlgorithm a) ↔
        ∃ (h : HeaderLayout) (es : List EventLayout) (o : EventOpening) (rest : Bytes), h.Fits ∧
          (∀ e ∈ es, e.Fits (lastSize h.declarations)) ∧ o.Fits (lastSize h.declarations) ∧
          lastSize h.declarations a = none ∧ bs = layOut h es ++ (o.bytes ++ (le16 a ++ rest))) ∧
      ∀ e, decode bs = .error e → e = .missingHeader ∨ (∃ a, e = .unknownAlgorithm a) ∨
        ∃ offset needed, e = .truncatedRecord offset needed bs.length ∧ offset ≤ bs.length ∧
          bs.length < offset + needed ∧ (∃ o, Breaks bs o) ∧ ∀ o, Breaks bs o → o ≤ offset := by
  refine ⟨decode_eq_missingHeader_iff bs, decode_eq_unknownAlgorithm_iff bs, fun e he => ?_⟩
  rcases decode_refusal he with hmissing | hrefusal
  · exact .inl hmissing
  · cases hrefusal with
    | unknown a => exact .inr (.inl ⟨a, rfl⟩)
    | @short offset needed _ hle hlt =>
      exact .inr (.inr ⟨offset, needed, rfl, hle, hlt, exists_breaks he, fun o ho => ho.le_offset he⟩)

/-- An event of two digests: one of a declared algorithm, then one of an algorithm that the header does not know. -/
def sampleOpening : EventOpening :=
  { registerField := 1, eventType := 2, digestCount := 2, digests := [(11, [0xAA, 0xBB])] }

theorem decode_failure_sample :
    (decode [1, 0, 0, 0, 4, 0, 0, 0] = .error .missingHeader ∧ Headless [1, 0, 0, 0, 4, 0, 0, 0]) ∧
      (decode (layOut sampleHeader sampleEvents ++ (sampleOpening.bytes ++ (le16 99 ++ [5]))) =
        .error (.unknownAlgorithm 99)) ∧
      decode (layOut sampleHeader sampleEvents ++ [1, 0, 0, 0, 3]) = .error (.truncatedRecord 121 4 122) ∧
      ∀ o, Breaks (layOut sampleHeader sampleEvents ++ [1, 0, 0, 0, 3]) o → o ≤ 121 := by
  have htype : Headless [1, 0, 0, 0, 4, 0, 0, 0] := .inr (.inr ⟨1, 4, [], by decide, by decide⟩)
  have hcut : decode (layOut sampleHeader sampleEvents ++ [1, 0, 0, 0, 3]) = .error (.truncatedRecord 121 4 122) := by
    cbv
  refine ⟨⟨(decode_failure _).1.2 htype, htype⟩, ?_, hcut, ?_⟩
  · refine ((decode_failure _).2.1 99).2 ⟨sampleHeader, sampleEvents, sampleOpening, [5], ?_, ?_, ?_, ?_, rfl⟩
    · decide
    · decide
    · exact ⟨by decide, by decide, by decide⟩
    · decide
  · rcases (decode_failure _).2.2 _ hcut with hmissing | ⟨a, ha⟩ | ⟨offset, needed, he, -, -, -, hle⟩
    · cases hmissing
    · cases ha
    · cases he
      exact hle

end Attestation.EventLog
