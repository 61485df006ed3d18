import Attestation.Bytes

/-!
# Hexadecimal text

`Hex.encode` writes two lowercase digits per byte, the high half first. `Hex.decode?` reads digits of either case and
refuses every other character and an odd number of digits. `Hex.fixed` writes a number with leading zeros.
-/

namespace Attestation.Text.Hex

/-! ## Writing -/

def byteDigits (b : UInt8) : List Char :=
  [Nat.digitChar (b.toNat / 16), Nat.digitChar (b.toNat % 16)]

def digits (bs : Bytes) : List Char := bs.flatMap byteDigits

def encode (bs : Bytes) : String := String.ofList (digits bs)

/-- The number `n` in at least `width` hexadecimal digits. -/
def fixed (width n : Nat) : String :=
  let ds := Nat.toDigits 16 n
  String.ofList (List.replicate (width - ds.length) '0' ++ ds)

theorem length_digits (bs : Bytes) : (digits bs).length = 2 * bs.length := by
  induction bs with
  | nil => rfl
  | cons b bs ih =>
    simp only [digits, List.flatMap_cons, List.length_append, List.length_cons] at ih ⊢
    simp only [byteDigits, List.length_cons, List.length_nil]
    omega

/-! ## Reading -/

/-- The value of a hexadecimal digit of either case. -/
def digitValue? (c : Char) : Option Nat :=
  if '0' ≤ c ∧ c ≤ '9' then some (c.toNat - 48)
  else if 'a' ≤ c ∧ c ≤ 'f' then some (c.toNat - 87)
  else if 'A' ≤ c ∧ c ≤ 'F' then some (c.toNat - 55)
  else none

/-- Reads pairs of digits, with the bytes read so far in reverse. -/
def decodeOnto (acc : Bytes) : List Char → Option Bytes
  | [] => some acc.reverse
  | [_] => none
  | h :: l :: cs =>
    match digitValue? h, digitValue? l with
    | some h, some l => decodeOnto (UInt8.ofNat (16 * h + l) :: acc) cs
    | _, _ => none

def decode? (cs : List Char) : Option Bytes := decodeOnto [] cs

end Attestation.Text.Hex
