import Attestation.Bytes

/-!
# Byte strings of a fixed length

A `Block n` holds exactly `n` bytes. `Block.split` cuts one in two, `Block.append` joins two, and each undoes the
other, so a structure of blocks read by repeated cutting loses no byte.
-/

namespace Attestation

/-- A byte string of length `n`. -/
structure Block (n : Nat) where
  bytes : Bytes
  length_eq : bytes.length = n
  deriving DecidableEq, Repr

namespace Block

@[ext] theorem ext {n : Nat} {a b : Block n} (h : a.bytes = b.bytes) : a = b := by
  cases a; cases b; cases h; rfl

/-- The bytes as a block, if there are `n` of them. -/
def ofBytes? (n : Nat) (bs : Bytes) : Option (Block n) := if h : bs.length = n then some ⟨bs, h⟩ else none

/-- The first `m` bytes and the others. -/
def split (m : Nat) {n : Nat} (b : Block (m + n)) : Block m × Block n :=
  (⟨b.bytes.take m, by simp [b.length_eq]⟩, ⟨b.bytes.drop m, by simp [b.length_eq]⟩)

def append {m n : Nat} (a : Block m) (b : Block n) : Block (m + n) :=
  ⟨a.bytes ++ b.bytes, by simp [a.length_eq, b.length_eq]⟩

theorem append_split (m : Nat) {n : Nat} (b : Block (m + n)) : (b.split m).1.append (b.split m).2 = b := by
  ext1; simp [split, append]

theorem split_append {m n : Nat} (a : Block m) (b : Block n) : (a.append b).split m = (a, b) := by
  simp [split, append, a.length_eq]

def byte (b : Block 1) : UInt8 := b.bytes.headD 0

def ofByte (x : UInt8) : Block 1 := ⟨[x], rfl⟩

theorem ofByte_byte (b : Block 1) : ofByte b.byte = b := by
  obtain ⟨bs, h⟩ := b
  match bs, h with
  | [_], _ => rfl

/-- The bytes with zeros behind them, up to `n` bytes. -/
def padded (n : Nat) (bs : Bytes) (h : bs.length ≤ n) : Block n :=
  ⟨bs ++ List.replicate (n - bs.length) 0, by simp; omega⟩

def zeros (n : Nat) : Block n := .padded n [] (Nat.zero_le n)

end Block

end Attestation
