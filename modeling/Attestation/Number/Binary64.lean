/-!
# Double precision numbers

A `Binary64` is one of the numbers of the 64-bit floating point format, kept as the fraction that it is:
`finite negative m q` is `m · 2 ^ q`, with the sign beside it. `Binary64.ofRatio` rounds a ratio to the nearest number,
an exact tie going to the even mantissa. `Binary64.decimalText` writes the fewest digits that read back, in positional
notation, of which the digits nearest to the number.

Everything is computed with natural numbers, so no rounding happens but the one that is meant.
-/

namespace Attestation

/-- A double precision number. -/
inductive Binary64 where
  /-- The number `mantissa · 2 ^ exponent`, or its opposite; zero has a sign too. -/
  | finite (negative : Bool) (mantissa : Nat) (exponent : Int)
  | infinite (negative : Bool)
  | notANumber
  deriving DecidableEq, Repr

namespace Binary64

def precision : Nat := 53

/-- The least exponent, which subnormal numbers share with the smallest normal ones. -/
def minExponent : Int := -1074

def maxExponent : Int := 971

/-! ## Rounding -/

/-- `n / d` to the nearest natural number, a half going to the even neighbour. -/
def roundHalfEven (n d : Nat) : Nat :=
  let q := n / d
  let twice := 2 * (n % d)
  if twice < d then q
  else if d < twice then q + 1
  else if q % 2 = 0 then q else q + 1

/-- The exponent at which `n / d` has a mantissa of full precision, or the least one. -/
def exponentOf (n d : Nat) : Int :=
  -- The quotient lies between `2 ^ (e - 1)` and `2 ^ (e + 1)`.
  let e : Int := (Nat.log2 n : Int) - Nat.log2 d
  let atLeast : Bool := if 0 ≤ e then decide (d <<< e.toNat ≤ n) else decide (d ≤ n <<< (-e).toNat)
  let top := if atLeast then e else e - 1
  max minExponent (top - (precision - 1))

/-- The number with this mantissa, where a mantissa one digit too long ends in a zero, or infinity. -/
def ofMantissa (negative : Bool) (mantissa : Nat) (exponent : Int) : Binary64 :=
  let (m, q) := if mantissa = 1 <<< precision then (mantissa / 2, exponent + 1) else (mantissa, exponent)
  if maxExponent < q then .infinite negative else .finite negative m q

/-- The number nearest to `n / d`. -/
def ofRatio (negative : Bool) (n d : Nat) : Binary64 :=
  if n = 0 ∨ d = 0 then .finite negative 0 minExponent
  else
    let q := exponentOf n d
    let m := if 0 ≤ q then roundHalfEven n (d <<< q.toNat) else roundHalfEven (n <<< (-q).toNat) d
    ofMantissa negative m q

/-- The number nearest to `digits · 10 ^ exponent`. -/
def ofDecimal (negative : Bool) (digits : Nat) (exponent : Int) : Binary64 :=
  if digits = 0 then .finite negative 0 minExponent
  -- Far outside of the range only the side matters.
  else if 400 < exponent then .infinite negative
  else if exponent + (Nat.toDigits 10 digits).length < -400 then .finite negative 0 minExponent
  else if 0 ≤ exponent then ofRatio negative (digits * Nat.pow 10 exponent.toNat) 1
  else ofRatio negative digits (Nat.pow 10 (-exponent).toNat)

def ofNat (n : Nat) : Binary64 := ofRatio false n 1

/-! ## Arithmetic -/

def neg : Binary64 → Binary64
  | .finite s m q => .finite (!s) m q
  | .infinite s => .infinite (!s)
  | .notANumber => .notANumber

def isZero : Binary64 → Bool
  | .finite _ m _ => m = 0
  | _ => false

def isInfinite : Binary64 → Bool
  | .infinite _ => true
  | _ => false

def ratio (m : Nat) (q : Int) : Nat × Nat :=
  if 0 ≤ q then (m <<< q.toNat, 1) else (m, 1 <<< (-q).toNat)

def mul : Binary64 → Binary64 → Binary64
  | .finite s m q, .finite s' m' q' =>
    let (n, d) := ratio m q
    let (n', d') := ratio m' q'
    ofRatio (s != s') (n * n') (d * d')
  | x, _ => x

/-- The rounded quotient of a finite number by one that is not zero. -/
def div : Binary64 → Binary64 → Binary64
  | .finite s m q, .finite s' m' q' =>
    let (n, d) := ratio m q
    let (n', d') := ratio m' q'
    ofRatio (s != s') (n * d') (d * n')
  | x, _ => x

/-! ## Decimal text -/

/-- The open or closed interval of the magnitudes that round to a number, as numerators over `4 · d`. -/
structure Interval where
  low : Nat
  value : Nat
  high : Nat
  scale : Nat
  closed : Bool

/-- The magnitudes that round to `m · 2 ^ q`; below a power of two the numbers lie twice as close. -/
def interval (m : Nat) (q : Int) : Interval :=
  let (n, d) := ratio m q
  let (u, _) := ratio 1 q
  let narrow := m = 1 <<< (precision - 1) ∧ minExponent < q
  { low := 4 * n - (if narrow then u else 2 * u), value := 4 * n, high := 4 * n + 2 * u, scale := 4 * d,
    closed := m % 2 = 0 }

/-- Whether `k / g` lies in the interval, `k` counting steps of the grid of width `1 / g`. -/
def Interval.contains (i : Interval) (k g : Nat) : Bool :=
  if i.closed then i.low * g ≤ k * i.scale ∧ k * i.scale ≤ i.high * g
  else i.low * g < k * i.scale ∧ k * i.scale < i.high * g

/-- The point of the grid of width `w / g` in the interval that lies nearest to the value, an exact tie going up. -/
def Interval.nearest? (i : Interval) (w g : Nat) : Option Nat :=
  let below := i.value * g / (i.scale * w)
  let inside k := i.contains (k * w) g
  match inside below, inside (below + 1) with
  | true, true =>
    let remainder := i.value * g % (i.scale * w)
    some (if 2 * remainder < i.scale * w then below else below + 1)
  | true, false => some below
  | false, true => some (below + 1)
  | false, false => none

/-- The first grid `10 ^ p`, `10 ^ (p - 1)`, … with a point in the interval, and that point. -/
def shortestFrom (i : Interval) : (fuel : Nat) → (p : Int) → Nat × Int
  | 0, p => (0, p)
  | fuel + 1, p =>
    let found := if 0 ≤ p then i.nearest? (Nat.pow 10 p.toNat) 1 else i.nearest? 1 (Nat.pow 10 (-p).toNat)
    match found with
    | some (k + 1) => (k + 1, p)
    | _ => shortestFrom i fuel (p - 1)

/-- The decimal digits and the decimal exponent of the shortest number that rounds to `m · 2 ^ q`. -/
def shortest (m : Nat) (q : Int) : Nat × Int := shortestFrom (interval m q) 700 310

/-- The digits of `k · 10 ^ p` without an exponent, and without zeros at the end of the fraction. -/
def positional (k : Nat) (p : Int) : List Char :=
  let ds := Nat.toDigits 10 k
  if 0 ≤ p then ds ++ List.replicate p.toNat '0'
  else
    let places := (-p).toNat
    if places < ds.length then ds.take (ds.length - places) ++ '.' :: ds.drop (ds.length - places)
    else '0' :: '.' :: List.replicate (places - ds.length) '0' ++ ds

def decimalText : Binary64 → String
  | .finite s 0 _ => if s then "-0" else "0"
  | .finite s m q =>
    let (k, p) := shortest m q
    String.ofList ((if s then ['-'] else []) ++ positional k p)
  | .infinite s => if s then "-inf" else "inf"
  | .notANumber => "NaN"

end Binary64

end Attestation
