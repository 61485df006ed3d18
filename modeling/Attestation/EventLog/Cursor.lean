import Attestation.Bytes
import Attestation.Fault

/-!
# Reading a log from front to back

A `Cursor` stands at an offset of a byte string, before the bytes that are still to be read, and a `Reader` takes
some of them or fails. `Consumes n r` says that `r` moves the cursor forward by `n` bytes at least, and over bytes that
are there; it is what makes the loop over the events end.
-/

namespace Attestation.EventLog

/-- A position in a byte string. -/
structure Cursor where
  /-- The number of bytes before the position. -/
  offset : Nat
  /-- The bytes after it. -/
  rest : Bytes
  deriving DecidableEq, Repr

namespace Cursor

def start (bs : Bytes) : Cursor := ⟨0, bs⟩

def advance (c : Cursor) (n : Nat) : Cursor := ⟨c.offset + n, c.rest.drop n⟩

def total (c : Cursor) : Nat := c.offset + c.rest.length

end Cursor

/-- A step that takes bytes at the cursor. -/
abbrev Reader (α : Type) := StateT Cursor (Except Fault) α

/-! ## Numbers and byte strings -/

def take (n : Nat) : Reader Bytes := fun c =>
  let taken := c.rest.take n
  if taken.length = n then .ok (taken, c.advance n) else .error (.truncatedRecord c.offset n c.total)

def byte : Reader UInt8 := do return UInt8.ofNat (← take 1).toNatLE

def word16 : Reader UInt16 := do return UInt16.ofNat (← take 2).toNatLE

def word32 : Reader UInt32 := do return UInt32.ofNat (← take 4).toNatLE

/-- Runs `r` `n` times, with the earlier results in reverse. -/
def timesOnto {α : Type} (r : Reader α) : (n : Nat) → (acc : List α) → Reader (List α)
  | 0, acc, c => .ok (acc.reverse, c)
  | n + 1, acc, c =>
    match r c with
    | .ok (a, c) => timesOnto r n (a :: acc) c
    | .error e => .error e

def times {α : Type} (n : Nat) (r : Reader α) : Reader (List α) := timesOnto r n []

/-- The result of `r` with the bytes that it took. -/
def withRaw {α : Type} (r : Reader α) : Reader (α × Bytes) := fun c =>
  match r c with
  | .ok (a, c') => .ok ((a, c.rest.take (c'.offset - c.offset)), c')
  | .error e => .error e

/-! ## One step of a reader -/

section Steps
variable {α β : Type}

theorem pure_apply (a : α) (c : Cursor) : (pure a : Reader α) c = .ok (a, c) := rfl

theorem bind_of_ok {r : Reader α} {c d : Cursor} {a : α} (h : r c = .ok (a, d)) (f : α → Reader β) :
    (r >>= f) c = f a d := by
  simp only [Bind.bind, StateT.bind, Except.bind, h]

theorem bind_of_error {r : Reader α} {c : Cursor} {e : Fault} (h : r c = .error e) (f : α → Reader β) :
    (r >>= f) c = .error e := by
  simp only [Bind.bind, StateT.bind, Except.bind, h]

theorem bind_eq_ok {r : Reader α} {f : α → Reader β} {c c' : Cursor} {b : β} :
    (r >>= f) c = .ok (b, c') ↔ ∃ a d, r c = .ok (a, d) ∧ f a d = .ok (b, c') := by
  cases hr : r c with
  | error e => simp [bind_of_error hr]
  | ok x =>
    obtain ⟨a, d⟩ := x
    rw [bind_of_ok hr]
    constructor
    · intro h
      exact ⟨a, d, rfl, h⟩
    · intro hp
      obtain ⟨_, _, hx, h⟩ := hp
      cases hx
      exact h

theorem timesOnto_zero (r : Reader α) (acc : List α) : timesOnto r 0 acc = pure acc.reverse := rfl

theorem timesOnto_succ (r : Reader α) (n : Nat) (acc : List α) :
    timesOnto r (n + 1) acc = r >>= fun a => timesOnto r n (a :: acc) := by
  funext c
  cases hr : r c with
  | error e => rw [timesOnto, hr, bind_of_error hr]
  | ok x => rw [timesOnto, hr, bind_of_ok hr]

theorem withRaw_of_ok {r : Reader α} {c c' : Cursor} {a : α} (h : r c = .ok (a, c')) :
    withRaw r c = .ok ((a, c.rest.take (c'.offset - c.offset)), c') := by
  rw [withRaw, h]

theorem withRaw_of_error {r : Reader α} {c : Cursor} {e : Fault} (h : r c = .error e) :
    withRaw r c = .error e := by
  rw [withRaw, h]

end Steps

/-! ## Progress -/

/-- Whenever `r` succeeds it takes `n` bytes or more, all of them present. -/
def Consumes {α : Type} (n : Nat) (r : Reader α) : Prop :=
  ∀ (c c' : Cursor) (a : α), r c = .ok (a, c') → ∃ k, n ≤ k ∧ k ≤ c.rest.length ∧ c' = c.advance k

theorem Cursor.advance_advance (c : Cursor) (j k : Nat) : (c.advance j).advance k = c.advance (j + k) := by
  simp [Cursor.advance, Nat.add_assoc]

theorem Consumes.mono {α : Type} {m n : Nat} {r : Reader α} (h : Consumes n r) (hmn : m ≤ n) : Consumes m r :=
  fun c c' a hr => have ⟨k, hk, hr⟩ := h c c' a hr; ⟨k, Nat.le_trans hmn hk, hr⟩

theorem consumes_pure {α : Type} (a : α) : Consumes 0 (pure a : Reader α) := by
  intro c c' b h
  cases h
  exact ⟨0, Nat.le_refl 0, Nat.zero_le _, rfl⟩

theorem consumes_throw {α : Type} (n : Nat) (e : Fault) : Consumes n (throw e : Reader α) := by
  intro c c' b h
  cases h

theorem Consumes.bind {α β : Type} {m n : Nat} {r : Reader α} {f : α → Reader β} (hr : Consumes m r)
    (hf : ∀ a, Consumes n (f a)) : Consumes (m + n) (r >>= f) := by
  intro c c' b h
  obtain ⟨a, d, hc, h⟩ := bind_eq_ok.1 h
  obtain ⟨j, hj, hjl, rfl⟩ := hr _ _ _ hc
  obtain ⟨k, hk, hkl, rfl⟩ := hf a _ _ _ h
  refine ⟨j + k, Nat.add_le_add hj hk, ?_, c.advance_advance j k⟩
  simp only [Cursor.advance, List.length_drop] at hkl
  omega

theorem consumes_take (n : Nat) : Consumes n (take n) := by
  intro c c' bs h
  simp only [take] at h
  split at h
  · next hn =>
    obtain ⟨-, rfl⟩ : _ ∧ c.advance n = c' := by simpa using h
    exact ⟨n, Nat.le_refl n, by simp at hn; omega, rfl⟩
  · cases h

theorem consumes_byte : Consumes 1 byte := (consumes_take 1).bind fun _ => consumes_pure _

theorem consumes_word16 : Consumes 2 word16 := (consumes_take 2).bind fun _ => consumes_pure _

theorem consumes_word32 : Consumes 4 word32 := (consumes_take 4).bind fun _ => consumes_pure _

theorem Consumes.timesOnto {α : Type} {m : Nat} {r : Reader α} (hr : Consumes m r) (n : Nat) (acc : List α) :
    Consumes (n * m) (timesOnto r n acc) := by
  induction n generalizing acc with
  | zero =>
    rw [Nat.zero_mul, timesOnto_zero]
    exact consumes_pure _
  | succ n ih =>
    rw [Nat.succ_mul, Nat.add_comm, timesOnto_succ]
    exact hr.bind fun a => ih (a :: acc)

theorem Consumes.times {α : Type} {m : Nat} {r : Reader α} (hr : Consumes m r) (n : Nat) :
    Consumes (n * m) (times n r) := hr.timesOnto n []

theorem Consumes.withRaw {α : Type} {n : Nat} {r : Reader α} (hr : Consumes n r) : Consumes n (withRaw r) := by
  intro c c' a h
  simp only [EventLog.withRaw] at h
  split at h
  · next b d hd =>
    obtain ⟨-, rfl⟩ : _ ∧ d = c' := by simpa using h
    exact hr _ _ _ hd
  · cases h

end Attestation.EventLog
