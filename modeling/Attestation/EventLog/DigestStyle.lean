import Attestation.Text.Hex

/-!
# How digests are written

A document writes each digest as text: as the decimal values of its bytes between brackets, or in hexadecimal digits.
-/

namespace Attestation

/-- The text form of a digest. -/
inductive DigestStyle where
  /-- Decimal byte values between brackets, separated by single blanks. -/
  | byteArray
  /-- Lowercase hexadecimal digits. -/
  | hex
  deriving DecidableEq, Repr, Inhabited

namespace DigestStyle

def name : DigestStyle → String
  | byteArray => "byte-array"
  | hex => "hex"

def ofName? (name : String) : Option DigestStyle :=
  if name = byteArray.name then some byteArray else if name = hex.name then some hex else none

/-- The values of the bytes with blanks between them. -/
def decimals : Bytes → List Char
  | [] => []
  | [b] => Nat.toDigits 10 b.toNat
  | b :: c :: bs => Nat.toDigits 10 b.toNat ++ ' ' :: decimals (c :: bs)

def characters : DigestStyle → Bytes → List Char
  | byteArray, digest => '[' :: decimals digest ++ [']']
  | hex, digest => Text.Hex.digits digest

def render (style : DigestStyle) (digest : Bytes) : String := String.ofList (style.characters digest)

end DigestStyle

end Attestation
