import Attestation.Proofs.EventLog.Scan

/-!
# Readers that only take

* `Sequential r` : all that `r` does is to take bytes, one run after the other, each no longer than a field can say;
  which run comes next, and whether it gives up, depends on the values of the bytes taken so far and on nothing else;
* `Truncated result o k` : `result` refuses bytes that end at offset `k`, at an offset between `o` and `k`;
* `Sequential.cut` : so does a sequential reader when its bytes are cut before the last that it takes.
-/

namespace Attestation.EventLog

variable {α β : Type}

/-- A reader that takes bytes, one run after the other, and decides by their values how to go on. -/
inductive Sequential {α : Type} : Reader α → Prop where
  | done (a : α) : Sequential (pure a)
  | refuse (algorithm : UInt16) : Sequential (throw (.unknownAlgorithm algorithm))
  | next (n : Nat) (hn : n < UInt32.size) (k : Bytes → Reader α) (h : ∀ bs, Sequential (k bs)) :
    Sequential (take n >>= k)

/-! ## Composition -/

theorem throw_bind (e : Fault) (f : α → Reader β) : (throw e : Reader α) >>= f = throw e := rfl

theorem Sequential.bind {r : Reader α} {f : α → Reader β} (hr : Sequential r) (hf : ∀ a, Sequential (f a)) :
    Sequential (r >>= f) := by
  induction hr with
  | done a =>
    rw [pure_bind]
    exact hf a
  | refuse algorithm =>
    rw [throw_bind]
    exact .refuse algorithm
  | next n hn k _ ih =>
    rw [bind_assoc]
    exact .next n hn _ ih

theorem sequential_take {n : Nat} (hn : n < UInt32.size) : Sequential (take n) := by
  rw [← bind_pure (take n)]
  exact .next n hn _ .done

theorem sequential_byte : Sequential byte := (sequential_take (by decide)).bind fun _ => .done _

theorem sequential_word16 : Sequential word16 := (sequential_take (by decide)).bind fun _ => .done _

theorem sequential_word32 : Sequential word32 := (sequential_take (by decide)).bind fun _ => .done _

theorem Sequential.timesOnto {r : Reader α} (hr : Sequential r) (n : Nat) (acc : List α) :
    Sequential (timesOnto r n acc) := by
  induction n generalizing acc with
  | zero => exact .done _
  | succ n ih =>
    rw [timesOnto_succ]
    exact hr.bind fun a => ih (a :: acc)

theorem Sequential.times {r : Reader α} (hr : Sequential r) (n : Nat) : Sequential (times n r) := hr.timesOnto n []

/-- What is left behind a sequential reader is what it has not taken. -/
theorem Sequential.rest {r : Reader α} (hr : Sequential r) {c c' : Cursor} {a : α} (h : r c = .ok (a, c')) :
    ∃ p, c.rest = p ++ c'.rest ∧ c'.offset = c.offset + p.length := by
  induction hr generalizing c with
  | done b =>
    cases h
    exact ⟨[], rfl, rfl⟩
  | refuse algorithm => cases h
  | next n _ f _ ih =>
    obtain ⟨bs, d, htake, hf⟩ := bind_eq_ok.1 h
    obtain ⟨q, -, hrest, hoffset⟩ := (parses_take n c d bs).1 htake
    obtain ⟨s, hrest', hoffset'⟩ := ih bs hf
    refine ⟨q ++ s, ?_, ?_⟩
    · rw [hrest, hrest', List.append_assoc]
    · rw [hoffset', hoffset, List.length_append, Nat.add_assoc]

theorem withRaw_pure (a : α) : withRaw (pure a) = pure (a, []) := by
  funext c
  rw [withRaw_of_ok (pure_apply a c), Nat.sub_self, List.take_zero, pure_apply]

theorem withRaw_take_bind (n : Nat) {f : Bytes → Reader α} (hf : ∀ bs, Sequential (f bs)) :
    withRaw (take n >>= f) = take n >>= fun bs => withRaw (f bs) >>= fun x => pure (x.1, bs ++ x.2) := by
  funext c
  cases htake : take n c with
  | error e => rw [withRaw_of_error (bind_of_error htake f), bind_of_error htake]
  | ok x =>
    obtain ⟨bs, d⟩ := x
    obtain ⟨p, ⟨hn, rfl⟩, hrest, hoffset⟩ := (parses_take n c d bs).1 htake
    cases hfd : f p d with
    | error e =>
      have hbind : (take n >>= f) c = .error e := by rw [bind_of_ok htake, hfd]
      rw [withRaw_of_error hbind, bind_of_ok htake, bind_of_error (withRaw_of_error hfd)]
    | ok y =>
      obtain ⟨a, c'⟩ := y
      obtain ⟨s, hrest', hoffset'⟩ := (hf p).rest hfd
      -- what was taken in all is what was taken first, and what `f p` took behind it
      have hraw : c.rest.take (c'.offset - c.offset) = p ++ d.rest.take (c'.offset - d.offset) := by
        rw [hrest, show c'.offset - c.offset = p.length + (c'.offset - d.offset) by omega,
          List.take_length_add_append]
      have hbind : (take n >>= f) c = .ok (a, c') := by rw [bind_of_ok htake, hfd]
      rw [withRaw_of_ok hbind, bind_of_ok htake, bind_of_ok (withRaw_of_ok hfd), pure_apply, hraw]

theorem Sequential.withRaw {r : Reader α} (hr : Sequential r) : Sequential (withRaw r) := by
  induction hr with
  | done a =>
    rw [withRaw_pure]
    exact .done (a, [])
  | refuse algorithm => exact .refuse algorithm
  | next n hn f hf ih =>
    rw [withRaw_take_bind n hf]
    exact .next n hn _ fun bs => (ih bs).bind fun _ => .done _

/-! ## The readers of records -/

theorem sequential_readPreamble : Sequential readPreamble :=
  sequential_word32.bind fun _ => sequential_word32.bind fun _ => sequential_word32.bind fun _ => .done _

theorem sequential_readHeaderFields : Sequential readHeaderFields := by
  have declaration : Sequential readDeclaration :=
    sequential_word16.bind fun _ => sequential_word16.bind fun _ => .done _
  have declarations : Sequential readDeclarations := sequential_word32.bind fun _ => declaration.times _
  have vendorInfo : Sequential skipVendorInfo :=
    sequential_byte.bind fun length => (sequential_take (length.toNat_lt.trans (by decide))).bind fun _ => .done _
  exact sequential_readPreamble.bind fun _ => (sequential_take (by decide)).bind fun _ =>
    declarations.bind fun _ => vendorInfo.bind fun _ => .done _

theorem sequential_readDigest (sizes : DigestTable) : Sequential (readDigest sizes) := by
  refine sequential_word16.bind fun algorithm => ?_
  cases sizes.get? algorithm with
  | none => exact .refuse algorithm
  | some size => exact (sequential_take (size.toNat_lt.trans (by decide))).bind fun _ => .done _

theorem sequential_readEventFields (sizes : DigestTable) : Sequential (readEventFields sizes) :=
  sequential_readPreamble.bind fun _ => ((sequential_readDigest sizes).times _).bind fun _ =>
    sequential_word32.bind fun payloadSize => (sequential_take payloadSize.toNat_lt).bind fun _ => .done _

theorem sequential_readHeader : Sequential readHeader := sequential_readHeaderFields.withRaw.bind fun _ => .done _

theorem sequential_readEvent (sizes : DigestTable) : Sequential (readEvent sizes) :=
  (sequential_readEventFields sizes).withRaw.bind fun _ => .done _

/-! ## Cutting the bytes short -/

/-- The cursor with no more than `k` bytes left. -/
def Cursor.cut (c : Cursor) (k : Nat) : Cursor := ⟨c.offset, c.rest.take k⟩

/-- The bytes end at offset `k`, before all that were asked for at an offset from `o` on. -/
def Truncated (result : Except Fault α) (o k : Nat) : Prop :=
  ∃ offset needed, result = .error (.truncatedRecord offset needed k) ∧
    o ≤ offset ∧ offset ≤ k ∧ k < offset + needed

theorem Truncated.bind {r : Reader α} {c : Cursor} {o k : Nat} (h : Truncated (r c) o k) (f : α → Reader β) :
    Truncated ((r >>= f) c) o k := by
  obtain ⟨offset, needed, herror, hbounds⟩ := h
  exact ⟨offset, needed, bind_of_error herror f, hbounds⟩

theorem Truncated.map {x : Except Fault α} {o k : Nat} (h : Truncated x o k) (f : α → β) : Truncated (x.map f) o k := by
  obtain ⟨offset, needed, rfl, hbounds⟩ := h
  exact ⟨offset, needed, rfl, hbounds⟩

theorem take_cut {n k : Nat} {c : Cursor} (hk : k < n) (hlen : k ≤ c.rest.length) :
    take n (c.cut k) = .error (.truncatedRecord c.offset n (c.offset + k)) := by
  have hcut : (c.cut k).rest.length = k := by
    rw [Cursor.cut, List.length_take]
    omega
  have hshort : ¬ ((c.cut k).rest.take n).length = n := by
    rw [List.length_take, hcut]
    omega
  simp only [take, if_neg hshort, Cursor.total, hcut]
  rfl

/-- **A reader whose bytes are cut** before the last that it takes asks for more than there are. -/
theorem Sequential.cut {r : Reader α} (hr : Sequential r) {c c' : Cursor} {a : α} (h : r c = .ok (a, c')) {k : Nat}
    (hk : c.offset + k < c'.offset) : Truncated (r (c.cut k)) c.offset (c.offset + k) := by
  induction hr generalizing c k with
  | done b =>
    cases h
    omega
  | refuse algorithm => cases h
  | next n _ f _ ih =>
    obtain ⟨bs, d, htake, hf⟩ := bind_eq_ok.1 h
    obtain ⟨p, ⟨hn, rfl⟩, hrest, hoffset⟩ := (parses_take n c d bs).1 htake
    by_cases hkn : k < n
    · -- the cut is within the bytes that are taken first
      have hlen : k ≤ c.rest.length := by
        rw [hrest, List.length_append]
        omega
      exact Truncated.bind ⟨c.offset, n, take_cut hkn hlen, by omega, by omega, by omega⟩ f
    · -- the first bytes are all there, and what follows them is cut
      have hcut : (c.cut k).rest = p ++ (d.cut (k - n)).rest := by
        rw [Cursor.cut, hrest, List.take_append, List.take_of_length_le (by omega), hn]
        rfl
      have hfirst : take n (c.cut k) = .ok (p, d.cut (k - n)) := by
        rw [(parses_take n).of_rest ⟨hn, rfl⟩ hcut]
        simp [Cursor.cut, hoffset]
      have hend : d.offset + (k - n) = c.offset + k := by omega
      obtain ⟨offset, needed, herror, hle, hbounds⟩ := ih p hf (k := k - n) (by omega)
      rw [hend] at herror hbounds
      refine ⟨offset, needed, ?_, by omega, hbounds⟩
      rw [bind_of_ok hfirst, herror]

end Attestation.EventLog
