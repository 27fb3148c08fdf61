import Backtrack.Decimal.Basic

/-!
# Rounding decimals to binary64

A binary64 number is kept as its sign and the remaining 63 bits, which order the magnitudes.  A
positive ratio is rounded to the nearest multiple of the spacing `2 ^ q` around it, ties to even.
The spacing is that of 53 significant bits and never below `2 ^ -1074`, so subnormals need no case
of their own; and because the bit pattern counts the magnitudes in order, a carry out of the
significand arrives at the next binade by itself.  All arithmetic is exact.
-/

namespace Backtrack

/-- A binary64 number other than a NaN, as its sign and its other 63 bits. -/
structure Binary64 where
  negative : Bool
  magnitude : Nat
  deriving DecidableEq

namespace Binary64

/-- The weight of the leading bit of a full significand. -/
def leadingBit : Nat := Nat.pow 2 52

/-- The pattern of infinity, one past that of the greatest finite magnitude. -/
def infinity : Nat := 0x7ff * leadingBit

/-- All 64 bits. -/
def bits (x : Binary64) : Nat := (if x.negative then Nat.pow 2 63 else 0) + x.magnitude

/-- Numeric equality: the sign of zero does not count. -/
def same (x y : Binary64) : Bool :=
  x.magnitude == y.magnitude && (x.negative == y.negative || x.magnitude == 0)

/-- The significand of a finite number, with its sign. -/
def significand (x : Binary64) : Int :=
  let fraction : Nat := x.magnitude % leadingBit
  let whole : Nat := if x.magnitude / leadingBit = 0 then fraction else fraction + leadingBit
  if x.negative then -whole else whole

/-- The last bit of the significand has the weight `2 ^ exponent`. -/
def exponent (x : Binary64) : Int := (max (x.magnitude / leadingBit) 1 : Nat) - 1075

/-- The least integer that is not below a number; infinity counts as the magnitude that would follow
the greatest finite one. -/
def ceiling (x : Binary64) : Int :=
  if 0 ≤ x.exponent then x.significand * (Nat.pow 2 x.exponent.toNat : Nat)
  else -(-x.significand / (Nat.pow 2 (-x.exponent).toNat : Nat))

/-- The integer that a number is, if it is one. -/
def toInt? (x : Binary64) : Option Int :=
  if infinity ≤ x.magnitude then none
  else if 0 ≤ x.exponent then some (x.significand * (Nat.pow 2 x.exponent.toNat : Nat))
  else
    let unit : Nat := Nat.pow 2 (-x.exponent).toNat
    if x.significand % unit = 0 then some (x.significand / unit) else none

/-- The integer nearest to `num / den`, the even one of two. -/
def divideToEven (num den : Nat) : Nat :=
  let q := num / den
  let r := num % den
  if 2 * r < den then q
  else if den < 2 * r then q + 1
  else q + q % 2

/-- The ratio `num / den` divided by `2 ^ q`, as a ratio. -/
def unscale (num den : Nat) (q : Int) : Nat × Nat :=
  if 0 ≤ q then (num, den * Nat.pow 2 q.toNat) else (num * Nat.pow 2 (-q).toNat, den)

/-- The greatest `e` with `2 ^ e ≤ num / den`, for positive `num` and `den`. -/
def floorLog2 (num den : Nat) : Int :=
  let e : Int := num.log2 - den.log2
  let (n, d) := unscale num den e
  if d ≤ n then e else e - 1

/-- The exponent of the spacing of binary64 magnitudes around `num / den`. -/
def spacing (num den : Nat) : Int := max (-1074) (floorLog2 num den - 52)

/-- The pattern of the magnitude nearest to the positive ratio `num / den`. -/
def nearest (num den : Nat) : Nat :=
  let q := spacing num den
  let (n, d) := unscale num den q
  min infinity ((q + 1074).toNat * leadingBit + divideToEven n d)

/-- The pattern of the magnitude nearest to `digits * 10 ^ exponent`.  Beyond any magnitude, and far
below the smallest one, the answer is given at once, so a long exponent costs nothing. -/
def nearestDecimal (digits : Nat) (exponent : Int) : Nat :=
  if digits = 0 then 0
  else if 400 < exponent then infinity
  else if 0 ≤ exponent then nearest (digits * Nat.pow 10 exponent.toNat) 1
  else if digits.log2 + 1 + 3 * exponent ≤ -1076 then 0
  else nearest digits (Nat.pow 10 (-exponent).toNat)

/-- The binary64 number nearest to a decimal. -/
def ofDecimal (d : Decimal) : Binary64 := ⟨d.negative, nearestDecimal d.digits d.exponent⟩

end Binary64

end Backtrack
