import Attestation.Datum

/-!
# Numbers of JSON

A number without fraction and exponent that fits into 64 bits is an integer. Every other number becomes a double: of
its digits those are kept that fit into an unsigned 64-bit significand, which is rounded first and then multiplied or
divided by a power of ten, rounding again. Overflow is refused, and so is a zero before another digit.
-/

namespace Attestation.Json

def maxSignificand : Nat := 0xFFFFFFFFFFFFFFFF

/-- The greatest exponent that is read exactly. -/
def maxExponent : Nat := 0x7FFFFFFF

/-- The greatest power of ten that is one factor. -/
def maxPower : Int := 308

/-- Digits gathered into a significand up to the first that does not fit. -/
structure Gathered where
  significand : Nat
  /-- How many digits are part of it. -/
  kept : Nat
  /-- How many are not. -/
  dropped : Nat

def gather : (significand kept : Nat) → (digits : List Char) → Gathered
  | s, k, [] => ⟨s, k, 0⟩
  | s, k, c :: cs =>
    let next := 10 * s + (c.toNat - 48)
    if maxSignificand < next then ⟨s, k, cs.length + 1⟩ else gather next (k + 1) cs

def powerOfTen (n : Nat) : Binary64 := .ofDecimal false 1 n

/-- `x · 10 ^ e`, rounded at each factor, unless it overflows. -/
def scale (x : Binary64) (e : Int) : Option Binary64 :=
  if -maxPower ≤ e ∧ e ≤ maxPower then
    if 0 ≤ e then
      let y := x.mul (powerOfTen e.toNat)
      if y.isInfinite then none else some y
    else some (x.div (powerOfTen (-e).toNat))
  else if x.isZero then some x
  else if _h : 0 ≤ e then none
  else scale (x.div (powerOfTen maxPower.toNat)) (e + maxPower)
termination_by (-e).toNat
decreasing_by
  have : maxPower = 308 := rfl
  omega

/-- The double with a sign, a significand and a decimal exponent. -/
def realOf (negative : Bool) (significand : Nat) (e : Int) : Option Datum :=
  (scale (.ofNat significand) e).map fun x => .real (if negative then x.neg else x)

/-- An integer, or the double of one that fits no signed word. A negative zero is a double. -/
def integerOf (negative : Bool) (significand : Nat) : Datum :=
  if !negative then .integer significand
  else if significand = 0 ∨ 0x8000000000000000 < significand then .real (Binary64.ofNat significand).neg
  else .integer (-significand)

/-- The digits at the front, and what follows them. -/
def spanDigits (cs : List Char) : List Char × List Char := (cs.takeWhile Char.isDigit, cs.dropWhile Char.isDigit)

/-- Reads an exponent behind its letter, and the number with it. -/
def readExponent (negative : Bool) (significand : Nat) (e : Int) (cs : List Char) : Option (Datum × List Char) :=
  let (down, cs) := match cs with
    | '+' :: cs => (false, cs)
    | '-' :: cs => (true, cs)
    | cs => (false, cs)
  let (ds, rest) := spanDigits cs
  if ds.isEmpty then none
  else
    let n := Nat.ofDigitChars 10 ds 0
    if maxExponent < n then
      if !down && significand ≠ 0 then none else some (.real (.finite negative 0 Binary64.minExponent), rest)
    else (realOf negative significand (if down then e - n else e + n)).map (·, rest)

/-- Reads what follows the digits before the point. -/
def readTail (negative : Bool) (g : Gathered) (cs : List Char) : Option (Datum × List Char) :=
  let behind (significand : Nat) (e : Int) (exact : Bool) : List Char → Option (Datum × List Char)
    | 'e' :: cs | 'E' :: cs => readExponent negative significand e cs
    | cs => if exact then some (integerOf negative significand, cs) else (realOf negative significand e).map (·, cs)
  match cs with
  | '.' :: cs =>
    let (ds, rest) := spanDigits cs
    if ds.isEmpty then none
    else
      let f := gather g.significand 0 ds
      behind f.significand (g.dropped - f.kept) false rest
  | cs => behind g.significand g.dropped (g.dropped = 0) cs

def readNumber (cs : List Char) : Option (Datum × List Char) :=
  let (negative, cs) := match cs with
    | '-' :: cs => (true, cs)
    | cs => (false, cs)
  match spanDigits cs with
  | ([], _) => none
  | ('0' :: _ :: _, _) => none
  | (ds, rest) => readTail negative (gather 0 0 ds) rest

end Attestation.Json
