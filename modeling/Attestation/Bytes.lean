/-!
# Byte strings

A byte string is a list, so that a law about byte strings is a law about lists. `Bytes.toNatLE` reads the number
that a byte string writes in little-endian order and `Bytes.ofNatLE` writes one. `Bytes.ofText` and `Bytes.text?` are
UTF-8.
-/

namespace Attestation

/-- A byte string. -/
abbrev Bytes := List UInt8

namespace Bytes

/-! ## Little-endian numbers -/

/-- The number that `bs` writes, least significant byte first. -/
def toNatLE : Bytes → Nat
  | [] => 0
  | b :: bs => b.toNat + 256 * toNatLE bs

/-- The `width` least significant bytes of `n`, the lowest first. -/
def ofNatLE : (width : Nat) → (n : Nat) → Bytes
  | 0, _ => []
  | width + 1, n => UInt8.ofNat n :: ofNatLE width (n / 256)

@[simp] theorem length_ofNatLE (width n : Nat) : (ofNatLE width n).length = width := by
  induction width generalizing n with
  | zero => rfl
  | succ width ih => simp [ofNatLE, ih]

/-! ## Text -/

def ofText (s : String) : Bytes := s.toUTF8.data.toList

/-- The text that the bytes write in UTF-8, if they are well-formed. -/
def text? (bs : Bytes) : Option String := String.fromUTF8? ⟨bs.toArray⟩

theorem text?_ofText (s : String) : text? (ofText s) = some s := by
  simp only [text?, ofText, Array.toArray_toList]
  have valid : (⟨s.toUTF8.data⟩ : ByteArray).IsValidUTF8 := s.isValidUTF8
  rw [String.fromUTF8?, dif_pos valid]
  rfl

end Bytes

end Attestation
