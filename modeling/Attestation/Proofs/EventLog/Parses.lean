import Attestation.EventLog.Layout
import Attestation.Proofs.Bytes

/-!
# What a reader accepts

`Parses r W` says that the reader `r` finds `a` in exactly the byte strings `p` with `W a p`, and goes on behind them:
neither the offset nor the bytes that follow make a difference. It holds of the primitive readers and is kept by
sequencing (`Parses.bind`), by repetition (`Parses.times`) and by `withRaw`, so the language of a record is read off
from the reader of the record.
-/

namespace Attestation.EventLog

variable {α β : Type}

/-- From any cursor, `r` reads `a` exactly when the next bytes are some `p` with `W a p`, and it takes these. -/
def Parses (r : Reader α) (W : α → Bytes → Prop) : Prop :=
  ∀ (c c' : Cursor) (a : α),
    r c = .ok (a, c') ↔ ∃ p, W a p ∧ c.rest = p ++ c'.rest ∧ c'.offset = c.offset + p.length

/-! ## Composition -/

theorem Parses.congr {r : Reader α} {W V : α → Bytes → Prop} (h : Parses r W) (hWV : ∀ a p, W a p ↔ V a p) :
    Parses r V := by
  intro c c' a
  simp only [h c c' a, hWV]

theorem parses_pure (a : α) : Parses (pure a) (fun b p => b = a ∧ p = []) := by
  intro c c' b
  rw [pure_apply]
  constructor
  · intro h
    cases h
    exact ⟨[], ⟨rfl, rfl⟩, rfl, rfl⟩
  · intro hp
    obtain ⟨_, ⟨rfl, rfl⟩, hrest, hoffset⟩ := hp
    have hc : c = c' := by
      cases c; cases c'
      simp_all
    rw [hc]

theorem parses_throw (e : Fault) : Parses (throw e : Reader α) (fun _ _ => False) := by
  intro c c' a
  constructor
  · intro h
    cases h
  · intro hp
    obtain ⟨_, h, -⟩ := hp
    cases h

theorem Parses.bind {r : Reader α} {f : α → Reader β} {W : α → Bytes → Prop} {V : α → β → Bytes → Prop}
    (hr : Parses r W) (hf : ∀ a, Parses (f a) (V a)) :
    Parses (r >>= f) (fun b p => ∃ a q s, W a q ∧ V a b s ∧ p = q ++ s) := by
  intro c c' b
  rw [bind_eq_ok]
  constructor
  · intro hp
    obtain ⟨a, d, hrd, hfc⟩ := hp
    obtain ⟨q, hq, hcq, hdq⟩ := (hr c d a).1 hrd
    obtain ⟨s, hs, hds, hcs⟩ := (hf a d c' b).1 hfc
    refine ⟨q ++ s, ⟨a, q, s, hq, hs, rfl⟩, ?_, ?_⟩
    · rw [hcq, hds, List.append_assoc]
    · rw [hcs, hdq, List.length_append, Nat.add_assoc]
  · intro hp
    obtain ⟨_, ⟨a, q, s, hq, hs, rfl⟩, hrest, hoffset⟩ := hp
    have first : r c = .ok (a, ⟨c.offset + q.length, s ++ c'.rest⟩) := by
      refine (hr _ _ _).2 ⟨q, hq, ?_, rfl⟩
      rw [hrest, List.append_assoc]
    refine ⟨a, _, first, (hf a _ _ _).2 ⟨s, hs, rfl, ?_⟩⟩
    rw [hoffset, List.length_append, Nat.add_assoc]

/-- A reader before one that takes nothing. -/
theorem Parses.map {r : Reader α} {W : α → Bytes → Prop} (hr : Parses r W) (f : α → β) :
    Parses (r >>= fun a => pure (f a)) (fun b p => ∃ a, b = f a ∧ W a p) := by
  refine (hr.bind fun a => parses_pure (f a)).congr fun b p => ⟨?_, ?_⟩
  · intro hp
    obtain ⟨a, q, _, hq, ⟨rfl, rfl⟩, rfl⟩ := hp
    exact ⟨a, rfl, by rwa [List.append_nil]⟩
  · intro hp
    obtain ⟨a, rfl, hp⟩ := hp
    exact ⟨a, p, [], hp, ⟨rfl, rfl⟩, (List.append_nil p).symm⟩

theorem Parses.timesOnto {r : Reader α} {C : α → Prop} {w : α → Bytes} (hr : Parses r (fun a p => C a ∧ p = w a))
    (n : Nat) (acc : List α) : Parses (timesOnto r n acc) (fun as p =>
      ∃ bs : List α, as = acc.reverse ++ bs ∧ (bs.length = n ∧ ∀ a ∈ bs, C a) ∧ p = bs.flatMap w) := by
  induction n generalizing acc with
  | zero =>
    rw [timesOnto_zero]
    refine (parses_pure _).congr fun as p => ⟨?_, ?_⟩
    · intro hp
      obtain ⟨rfl, rfl⟩ := hp
      exact ⟨[], by simp, by simp, rfl⟩
    · intro hp
      obtain ⟨bs, rfl, ⟨hbs, -⟩, rfl⟩ := hp
      rw [List.eq_nil_of_length_eq_zero hbs]
      simp
  | succ n ih =>
    rw [timesOnto_succ]
    refine (hr.bind fun a => ih (a :: acc)).congr fun as p => ⟨?_, ?_⟩
    · intro hp
      obtain ⟨a, _, _, ⟨ha, rfl⟩, ⟨bs, rfl, ⟨hn, hbs⟩, rfl⟩, rfl⟩ := hp
      refine ⟨a :: bs, by simp, ⟨by simp [hn], ?_⟩, by simp⟩
      intro b hb
      rcases List.mem_cons.1 hb with rfl | hb
      · exact ha
      · exact hbs b hb
    · intro hp
      obtain ⟨bs, rfl, ⟨hn, hbs⟩, rfl⟩ := hp
      cases bs with
      | nil => cases hn
      | cons a bs =>
        refine ⟨a, _, _, ⟨hbs a (by simp), rfl⟩, ⟨bs, by simp, ⟨by simpa using hn, ?_⟩, rfl⟩, by simp⟩
        exact fun b hb => hbs b (List.mem_cons_of_mem a hb)

/-- A repeated reader whose results determine their bytes. -/
theorem Parses.times {r : Reader α} {C : α → Prop} {w : α → Bytes} (hr : Parses r (fun a p => C a ∧ p = w a))
    (n : Nat) : Parses (times n r) (fun as p => (as.length = n ∧ ∀ a ∈ as, C a) ∧ p = as.flatMap w) := by
  refine (hr.timesOnto n []).congr fun as p => ⟨?_, ?_⟩
  · intro hp
    obtain ⟨bs, rfl, h⟩ := hp
    exact h
  · exact fun h => ⟨as, rfl, h⟩

theorem Parses.withRaw {r : Reader α} {W : α → Bytes → Prop} (hr : Parses r W) :
    Parses (withRaw r) (fun x p => W x.1 p ∧ x.2 = p) := by
  rintro c c' ⟨a, raw⟩
  have hw : EventLog.withRaw r c = .ok ((a, raw), c') ↔
      r c = .ok (a, c') ∧ raw = c.rest.take (c'.offset - c.offset) := by
    cases hr : r c with
    | error e => simp [withRaw_of_error hr]
    | ok x =>
      rw [withRaw_of_ok hr]
      grind
  rw [hw, hr c c' a]
  constructor
  · intro hp
    obtain ⟨⟨p, hp, hrest, hoffset⟩, rfl⟩ := hp
    exact ⟨p, ⟨hp, by simp [hrest, hoffset]⟩, hrest, hoffset⟩
  · intro hp
    obtain ⟨p, ⟨hp, hraw⟩, hrest, hoffset⟩ := hp
    exact ⟨⟨p, hp, hrest, hoffset⟩, by simp_all⟩

/-! ## Primitive readers -/

theorem parses_take (n : Nat) : Parses (take n) (fun bs p => bs.length = n ∧ p = bs) := by
  intro c c' bs
  simp only [take]
  constructor
  · intro h
    split at h
    · next hlen =>
      obtain ⟨rfl, rfl⟩ : c.rest.take n = bs ∧ c.advance n = c' := by simpa using h
      exact ⟨c.rest.take n, ⟨hlen, rfl⟩, (List.take_append_drop n c.rest).symm, by rw [hlen]; rfl⟩
    · cases h
  · intro hp
    obtain ⟨p, ⟨rfl, rfl⟩, hrest, hoffset⟩ := hp
    have hc : c.advance p.length = c' := by
      cases c'
      simp_all [Cursor.advance]
    simp [hrest, hc]

@[simp] theorem length_le32 (n : UInt32) : (le32 n).length = 4 := Bytes.length_ofNatLE 4 _

/-- A number in little-endian order, by a type `α` of the numbers below `256 ^ width`. -/
theorem parses_number {width : Nat} {ofNat : Nat → α} {toNat : α → Nat} (hlt : ∀ n, toNat n < 256 ^ width)
    (hof : ∀ n, ofNat (toNat n) = n) (hto : ∀ m < 256 ^ width, toNat (ofNat m) = m) :
    Parses (take width >>= fun bs => pure (ofNat bs.toNatLE)) (fun n p => p = Bytes.ofNatLE width (toNat n)) := by
  refine ((parses_take width).map fun bs => ofNat bs.toNatLE).congr fun n p => ⟨?_, ?_⟩
  · intro hp
    obtain ⟨_, rfl, hlen, rfl⟩ := hp
    have hlt' := Bytes.toNatLE_lt p
    rw [hlen] at hlt'
    rw [hto _ hlt', ← hlen, Bytes.ofNatLE_toNatLE]
  · rintro rfl
    refine ⟨_, ?_, Bytes.length_ofNatLE _ _, rfl⟩
    rw [Bytes.toNatLE_ofNatLE (hlt n), hof]

theorem parses_byte : Parses byte (fun b p => p = Bytes.ofNatLE 1 b.toNat) :=
  parses_number UInt8.toNat_lt (fun _ => UInt8.ofNat_toNat) fun _ => UInt8.toNat_ofNat_of_lt'

theorem parses_word16 : Parses word16 (fun n p => p = le16 n) :=
  parses_number UInt16.toNat_lt (fun _ => UInt16.ofNat_toNat) fun _ => UInt16.toNat_ofNat_of_lt'

theorem parses_word32 : Parses word32 (fun n p => p = le32 n) :=
  parses_number UInt32.toNat_lt (fun _ => UInt32.ofNat_toNat) fun _ => UInt32.toNat_ofNat_of_lt'

end Attestation.EventLog
