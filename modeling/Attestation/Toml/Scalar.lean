import Attestation.Text.Hex
import Attestation.Toml.Moment

/-!
# Numbers of TOML

Integers are signed 64-bit numbers, in decimal or with a base mark; floats are rounded to doubles, where overflow is
only refused above. Digits may be separated by single underscores.
-/

namespace Attestation.Toml

/-- A sign, if there is one; whether it is a minus. -/
def readSign : List Char → Bool × List Char
  | '+' :: cs => (false, cs)
  | '-' :: cs => (true, cs)
  | cs => (false, cs)

/-- Digits behind at least one, each underscore between two digits. -/
def readDigitsOnto (isDigit : Char → Bool) : (acc : List Char) → List Char → Option (List Char × List Char)
  | acc, '_' :: c :: cs => if isDigit c then readDigitsOnto isDigit (c :: acc) cs else none
  | acc, c :: cs =>
    if isDigit c then readDigitsOnto isDigit (c :: acc) cs
    else if c = '_' then none
    else some (acc.reverse, c :: cs)
  | acc, [] => some (acc.reverse, [])

/-- Digits, of which there is at least one. -/
def readDigits (isDigit : Char → Bool) : List Char → Option (List Char × List Char)
  | c :: cs => if isDigit c then readDigitsOnto isDigit [c] cs else none
  | [] => none

/-- Decimal digits without a zero in front of others. -/
def readWhole : List Char → Option (List Char × List Char)
  | '0' :: cs => some (['0'], cs)
  | cs => readDigits Char.isDigit cs

/-- An integer with a base mark. -/
def readBased (base : Nat) (cs : List Char) : Option (Datum × List Char) := do
  let isDigit (c : Char) : Bool := (Text.Hex.digitValue? c).any (· < base)
  let (ds, rest) ← readDigits isDigit cs
  let n := ds.foldl (fun n c => base * n + (Text.Hex.digitValue? c).getD 0) 0
  if n < 0x8000000000000000 then some (.integer n, rest) else none

def readExponent (cs : List Char) : Option (Int × List Char) := do
  let (down, cs) := readSign cs
  let (ds, rest) ← readDigits Char.isDigit cs
  let n : Int := Nat.ofDigitChars 10 ds 0
  some (if down then -n else n, rest)

/-- The double of some digits and an exponent, unless it is above all of them. -/
def realOf (negative : Bool) (digits : List Char) (exponent : Int) : Option Datum :=
  let x := Binary64.ofDecimal negative (Nat.ofDigitChars 10 digits 0) exponent
  if x = .infinite false then none else some (.real x)

/-- An integer without a base mark. -/
def integerOf (negative : Bool) (digits : List Char) : Option Datum :=
  let n : Int := Nat.ofDigitChars 10 digits 0
  let n := if negative then -n else n
  if -0x8000000000000000 ≤ n ∧ n < 0x8000000000000000 then some (.integer n) else none

/-- What follows the digits before the point: a fraction, an exponent, both, or neither. -/
def readTail (negative : Bool) (whole : List Char) : List Char → Option (Datum × List Char)
  | '.' :: cs => do
    let (fraction, rest) ← readDigits Char.isDigit cs
    let (e, rest) ← match rest with
      | 'e' :: rest | 'E' :: rest => readExponent rest
      | rest => some (0, rest)
    return (← realOf negative (whole ++ fraction) (e - fraction.length), rest)
  | 'e' :: cs | 'E' :: cs => do
    let (e, rest) ← readExponent cs
    return (← realOf negative whole e, rest)
  | cs => do return (← integerOf negative whole, cs)

/-- A number or a moment. -/
def readNumber (cs : List Char) : Option (Datum × List Char) :=
  match readMoment cs with
  | some (text, rest) => some (momentTable text, rest)
  | none =>
    match cs with
    | '0' :: 'x' :: cs => readBased 16 cs
    | '0' :: 'o' :: cs => readBased 8 cs
    | '0' :: 'b' :: cs => readBased 2 cs
    | cs =>
      let (negative, cs) := readSign cs
      match cs with
      | 'i' :: 'n' :: 'f' :: cs => some (.real (.infinite negative), cs)
      | 'n' :: 'a' :: 'n' :: cs => some (.real .notANumber, cs)
      | cs => (readWhole cs).bind fun (whole, rest) => readTail negative whole rest

end Attestation.Toml
