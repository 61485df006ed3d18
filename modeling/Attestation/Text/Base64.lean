import Attestation.Bytes

/-!
# Base64 text

The standard alphabet with padding. `Base64.encode` writes each three bytes as four symbols and pads the last group
with `=`. `Base64.decode?` is strict: it reads exactly the texts that `encode` writes, so the padding must be there
and the bits that a short last group leaves over must be zero.
-/

namespace Attestation.Text.Base64

/-! ## Symbols -/

def symbol (n : Nat) : Char :=
  if n < 26 then Char.ofNat (65 + n)
  else if n < 52 then Char.ofNat (71 + n)
  else if n < 62 then Char.ofNat (n - 4)
  else if n = 62 then '+'
  else '/'

def value? (c : Char) : Option Nat :=
  if 'A' ≤ c ∧ c ≤ 'Z' then some (c.toNat - 65)
  else if 'a' ≤ c ∧ c ≤ 'z' then some (c.toNat - 71)
  else if '0' ≤ c ∧ c ≤ '9' then some (c.toNat + 4)
  else if c = '+' then some 62
  else if c = '/' then some 63
  else none

theorem value?_symbol : ∀ n < 64, value? (symbol n) = some n := by decide

/-! ## Writing -/

/-- Appends the symbols of a byte string to `acc`, which holds earlier symbols in reverse. -/
def encodeOnto (acc : List Char) : Bytes → List Char
  | [] => acc.reverse
  | [a] =>
    let n := a.toNat * 16
    ('=' :: '=' :: symbol (n % 64) :: symbol (n / 64) :: acc).reverse
  | [a, b] =>
    let n := (a.toNat * 256 + b.toNat) * 4
    ('=' :: symbol (n % 64) :: symbol (n / 64 % 64) :: symbol (n / 4096) :: acc).reverse
  | a :: b :: c :: bs =>
    let n := (a.toNat * 256 + b.toNat) * 256 + c.toNat
    encodeOnto
      (symbol (n % 64) :: symbol (n / 64 % 64) :: symbol (n / 4096 % 64) :: symbol (n / 262144) :: acc) bs

def symbols (bs : Bytes) : List Char := encodeOnto [] bs

def encode (bs : Bytes) : String := String.ofList (symbols bs)

/-! ## Reading -/

/-- The one to three bytes of the last group of four symbols. -/
def lastGroup? (a b c d : Char) : Option Bytes := do
  let x ← value? a
  let y ← value? b
  if c = '=' ∧ d = '=' then
    if y % 16 = 0 then some [UInt8.ofNat (x * 4 + y / 16)] else none
  else
    let z ← value? c
    if d = '=' then
      if z % 4 = 0 then some [UInt8.ofNat (x * 4 + y / 16), UInt8.ofNat (y * 16 + z / 4)] else none
    else
      let w ← value? d
      some [UInt8.ofNat (x * 4 + y / 16), UInt8.ofNat (y * 16 + z / 4), UInt8.ofNat (z * 64 + w)]

/-- Reads groups of four symbols, with the bytes read so far in reverse. Only the last group may be padded. -/
def decodeOnto (acc : Bytes) : List Char → Option Bytes
  | [] => some acc.reverse
  | [a, b, c, d] => (lastGroup? a b c d).map fun bs => acc.reverse ++ bs
  | a :: b :: c :: d :: cs =>
    match value? a, value? b, value? c, value? d with
    | some x, some y, some z, some w =>
      decodeOnto (UInt8.ofNat (z * 64 + w) :: UInt8.ofNat (y * 16 + z / 4) :: UInt8.ofNat (x * 4 + y / 16) :: acc) cs
    | _, _, _, _ => none
  | _ => none

def decode? (s : String) : Option Bytes := decodeOnto [] s.toList

end Attestation.Text.Base64
