import Attestation.Proofs.EventLog.Scan

/-!
# Undeclared algorithms

`Meets r V` says that the reader `r` meets an undeclared algorithm `a` in exactly the byte strings that begin with some
`p` with `V a p`, whatever follows. As the language of a reader (`Parses`) it is kept by sequencing (`Meets.bind`), by
repetition (`Meets.timesOnto`) and by `withRaw`, so it is read off from the reader of a record:

* `silent_readHeader` : a header names no algorithm that would have to be declared;
* `EventOpening`, `meets_readEvent` : an event is refused for an algorithm after an opening, its first fields and the
  digests before.
-/

namespace Attestation.EventLog

variable {α β : Type}

/-! ## Composition -/

/-- From any cursor, `r` meets the undeclared algorithm `a` exactly when the next bytes are some `p` with `V a p`. -/
def Meets (r : Reader α) (V : UInt16 → Bytes → Prop) : Prop :=
  ∀ (c : Cursor) (a : UInt16), r c = .error (.unknownAlgorithm a) ↔ ∃ p, V a p ∧ p <+: c.rest

/-- The reader meets no undeclared algorithm. -/
abbrev Silent (r : Reader α) : Prop := Meets r fun _ _ => False

theorem silent_iff {r : Reader α} : Silent r ↔ ∀ c a, r c ≠ .error (.unknownAlgorithm a) := by
  simp [Meets]

theorem Meets.congr {r : Reader α} {V U : UInt16 → Bytes → Prop} (h : Meets r V) (hVU : ∀ a p, V a p ↔ U a p) :
    Meets r U := by
  intro c a
  simp only [h c a, hVU]

theorem silent_pure (x : α) : Silent (pure x : Reader α) := silent_iff.2 fun _ _ h => nomatch h

theorem silent_take (n : Nat) : Silent (take n) := by
  refine silent_iff.2 fun c a h => ?_
  unfold take at h
  simp only at h
  split at h <;> cases h

theorem meets_throw (algorithm : UInt16) :
    Meets (throw (.unknownAlgorithm algorithm) : Reader α) fun a p => a = algorithm ∧ p = [] := by
  intro c a
  constructor
  · intro h
    cases h
    exact ⟨[], ⟨rfl, rfl⟩, List.nil_prefix⟩
  · intro hp
    obtain ⟨_, ⟨rfl, rfl⟩, -⟩ := hp
    rfl

theorem Meets.bind {r : Reader α} {f : α → Reader β} {W : α → Bytes → Prop} {V : UInt16 → Bytes → Prop}
    {U : α → UInt16 → Bytes → Prop} (hr : Meets r V) (hparse : Parses r W) (hf : ∀ x, Meets (f x) (U x)) :
    Meets (r >>= f) fun a p => V a p ∨ ∃ x q s, W x q ∧ U x a s ∧ p = q ++ s := by
  intro c a
  constructor
  · intro h
    cases hc : r c with
    | error e =>
      rw [bind_of_error hc] at h
      cases h
      obtain ⟨p, hp, hprefix⟩ := (hr c a).1 hc
      exact ⟨p, .inl hp, hprefix⟩
    | ok y =>
      obtain ⟨x, d⟩ := y
      rw [bind_of_ok hc] at h
      obtain ⟨q, hq, hrest, -⟩ := (hparse c d x).1 hc
      obtain ⟨s, hs, hprefix⟩ := (hf x d a).1 h
      refine ⟨q ++ s, .inr ⟨x, q, s, hq, hs, rfl⟩, ?_⟩
      rw [hrest]
      exact (List.prefix_append_right_inj q).2 hprefix
  · intro hp
    obtain ⟨p, hp | ⟨x, q, s, hq, hs, rfl⟩, t, hrest⟩ := hp
    · exact bind_of_error ((hr c a).2 ⟨p, hp, t, hrest⟩) f
    · rw [List.append_assoc] at hrest
      rw [bind_of_ok (hparse.of_rest hq hrest.symm)]
      exact (hf x _ a).2 ⟨s, hs, List.prefix_append s t⟩

theorem Silent.bind {r : Reader α} {f : α → Reader β} (hr : Silent r) (hf : ∀ x, Silent (f x)) : Silent (r >>= f) := by
  refine silent_iff.2 fun c a h => ?_
  cases hc : r c with
  | error e =>
    rw [bind_of_error hc] at h
    cases h
    exact silent_iff.1 hr c a hc
  | ok y =>
    rw [bind_of_ok hc] at h
    exact silent_iff.1 (hf y.1) y.2 a h

theorem Meets.timesOnto {r : Reader α} {C : α → Prop} {w : α → Bytes} {V : UInt16 → Bytes → Prop} (hr : Meets r V)
    (hparse : Parses r fun x p => C x ∧ p = w x) (n : Nat) (acc : List α) : Meets (timesOnto r n acc) fun a p =>
      ∃ (xs : List α) (s : Bytes), (xs.length < n ∧ ∀ x ∈ xs, C x) ∧ V a s ∧ p = xs.flatMap w ++ s := by
  induction n generalizing acc with
  | zero =>
    rw [timesOnto_zero]
    exact (silent_pure _).congr (by simp)
  | succ n ih =>
    rw [timesOnto_succ]
    refine (hr.bind hparse fun x => ih (x :: acc)).congr fun a p => ⟨?_, ?_⟩
    · rintro (hp | ⟨x, _, _, ⟨hx, rfl⟩, ⟨xs, s, ⟨hn, hxs⟩, hs, rfl⟩, rfl⟩)
      · exact ⟨[], p, ⟨by simp, by simp⟩, hp, rfl⟩
      · exact ⟨x :: xs, s, ⟨by simpa using hn, List.forall_mem_cons.2 ⟨hx, hxs⟩⟩, hs, by simp⟩
    · rintro ⟨xs, s, ⟨hn, hxs⟩, hs, rfl⟩
      cases xs with
      | nil => exact .inl hs
      | cons x xs =>
        obtain ⟨hx, hxs⟩ := List.forall_mem_cons.1 hxs
        exact .inr ⟨x, _, _, ⟨hx, rfl⟩, ⟨xs, s, ⟨by simpa using hn, hxs⟩, hs, rfl⟩, by simp⟩

theorem Silent.timesOnto {r : Reader α} (hr : Silent r) (n : Nat) (acc : List α) : Silent (timesOnto r n acc) := by
  induction n generalizing acc with
  | zero => exact silent_pure _
  | succ n ih =>
    rw [timesOnto_succ]
    exact hr.bind fun x => ih (x :: acc)

theorem Meets.withRaw {r : Reader α} {V : UInt16 → Bytes → Prop} (hr : Meets r V) : Meets (withRaw r) V := by
  intro c a
  rw [← hr c a]
  cases hc : r c with
  | error e => rw [withRaw_of_error hc]; simp
  | ok y => rw [withRaw_of_ok hc]; simp

/-! ## Records -/

theorem silent_word16 : Silent word16 := (silent_take 2).bind fun _ => silent_pure _

theorem silent_word32 : Silent word32 := (silent_take 4).bind fun _ => silent_pure _

theorem silent_readPreamble : Silent readPreamble :=
  silent_word32.bind fun _ => silent_word32.bind fun _ => silent_word32.bind fun _ => silent_pure _

theorem silent_readHeader : Silent readHeader := by
  have declaration : Silent readDeclaration := silent_word16.bind fun _ => silent_word16.bind fun _ => silent_pure _
  have declarations : Silent readDeclarations := silent_word32.bind fun _ => declaration.timesOnto _ []
  have byte : Silent byte := (silent_take 1).bind fun _ => silent_pure _
  have vendorInfo : Silent skipVendorInfo := byte.bind fun _ => (silent_take _).bind fun _ => silent_pure _
  have fields : Silent readHeaderFields := silent_readPreamble.bind fun _ => (silent_take _).bind fun _ =>
    declarations.bind fun _ => vendorInfo.bind fun _ => silent_pure _
  exact Silent.bind fields.withRaw fun _ => silent_pure _

/-- How an event begins: its first fields, and digests of which more are announced. -/
structure EventOpening where
  /-- The register plus one. -/
  registerField : UInt32
  eventType : UInt32
  /-- The number of digests that the event announces. -/
  digestCount : UInt32
  /-- The first of them, with their algorithms. -/
  digests : List (UInt16 × Bytes)

namespace EventOpening

def bytes (o : EventOpening) : Bytes :=
  le32 o.registerField ++ le32 o.eventType ++ le32 o.digestCount ++ o.digests.flatMap (fun d => le16 d.1 ++ d.2)

/-- A further digest is announced, and those before it have the lengths that `sizeOf` gives their algorithms. -/
def Sized (sizeOf : UInt16 → Option UInt16) (o : EventOpening) : Prop :=
  o.digests.length < o.digestCount.toNat ∧ ∀ d ∈ o.digests, (sizeOf d.1).map UInt16.toNat = some d.2.length

/-- The opening can stand after a header that declares the lengths `sizeOf`, and is no end marker. -/
def Fits (sizeOf : UInt16 → Option UInt16) (o : EventOpening) : Prop :=
  o.registerField ≠ endMarker ∧ o.Sized sizeOf

end EventOpening

theorem meets_readDigest (sizes : DigestTable) :
    Meets (readDigest sizes) fun a p => sizes.get? a = none ∧ p = le16 a := by
  refine (Meets.bind silent_word16 parses_word16 (U := fun algorithm a p =>
    sizes.get? algorithm = none ∧ a = algorithm ∧ p = []) fun algorithm => ?_).congr fun a p => ⟨?_, ?_⟩
  · cases sizes.get? algorithm with
    | none => exact (meets_throw algorithm).congr (by simp)
    | some size => exact (Silent.bind (silent_take _) fun _ => silent_pure _).congr (by simp)
  · rintro (hp | ⟨algorithm, _, _, rfl, ⟨hnone, rfl, rfl⟩, rfl⟩)
    · cases hp
    · exact ⟨hnone, List.append_nil _⟩
  · rintro ⟨hnone, rfl⟩
    exact .inr ⟨a, le16 a, [], rfl, ⟨hnone, rfl, rfl⟩, (List.append_nil _).symm⟩

theorem meets_readEventFields (sizes : DigestTable) : Meets (readEventFields sizes) fun a p =>
    ∃ o : EventOpening, o.Sized sizes.get? ∧ sizes.get? a = none ∧ p = o.bytes ++ le16 a := by
  have payload (p : Preamble) (digests : List (UInt16 × Bytes)) : Silent (word32 >>= fun payloadSize =>
      take payloadSize.toNat >>= fun payload => pure (p, digests, payloadSize, payload)) :=
    silent_word32.bind fun _ => Silent.bind (silent_take _) fun _ => silent_pure _
  have digests (p : Preamble) := ((meets_readDigest sizes).timesOnto (parses_readDigest sizes) p.digestCount.toNat
    []).bind ((parses_readDigest sizes).times p.digestCount.toNat) fun digests => payload p digests
  refine (Meets.bind silent_readPreamble parses_readPreamble digests).congr fun a bs => ⟨?_, ?_⟩
  · rintro (hp | ⟨p, _, _, rfl, ⟨ds, _, ⟨hcount, hds⟩, ⟨hnone, rfl⟩, rfl⟩ | ⟨_, _, _, _, hp, _⟩, rfl⟩)
    · cases hp
    · refine ⟨⟨p.register + 1, p.eventType, p.digestCount, ds⟩, ⟨hcount, hds⟩, hnone, ?_⟩
      simp [Preamble.bytes, EventOpening.bytes]
    · cases hp
  · rintro ⟨o, ⟨hcount, hds⟩, hnone, rfl⟩
    refine .inr ⟨⟨o.registerField - 1, o.eventType, o.digestCount⟩, _, _, rfl,
      .inl ⟨o.digests, _, ⟨hcount, hds⟩, ⟨hnone, rfl⟩, rfl⟩, ?_⟩
    simp [Preamble.bytes, EventOpening.bytes]

/-- **An undeclared algorithm** is met in exactly the events that begin with an opening and the algorithm. -/
theorem meets_readEvent (sizes : DigestTable) : Meets (readEvent sizes) fun a p =>
    ∃ o : EventOpening, o.Sized sizes.get? ∧ sizes.get? a = none ∧ p = o.bytes ++ le16 a := by
  refine (Meets.bind (meets_readEventFields sizes).withRaw (parses_readEventFields sizes).withRaw
    fun _ => silent_pure _).congr fun a p => ?_
  simp only [and_false, false_and, exists_false, or_false]

end Attestation.EventLog
