import Backtrack.Text

/-!
# Numerals

Digits of every base up to thirty-six and the number that a run of them denotes.  A run may be too
long to be converted: in a base that is no power of two, where the cost of converting grows faster
than the run, there is a limit to its length.
-/

namespace Backtrack.Numeral

/-- The value of a digit: the letters of either case follow the decimal digits. -/
def digit? (c : CodePoint) : Option Nat :=
  let n := c.val
  if '0'.toNat ≤ n ∧ n ≤ '9'.toNat then some (n - '0'.toNat)
  else if 'a'.toNat ≤ n ∧ n ≤ 'z'.toNat then some (n - 'a'.toNat + 10)
  else if 'A'.toNat ≤ n ∧ n ≤ 'Z'.toNat then some (n - 'A'.toNat + 10)
  else none

/-- Reads on from the value `acc` of the digits read so far. -/
def readFrom? (base acc : Nat) : Text → Option Nat
  | [] => some acc
  | c :: t =>
    match digit? c with
    | some d => if d < base then readFrom? base (acc * base + d) t else none
    | none => none

/-- The number that a non-empty run of digits denotes, the most significant digit first. -/
def read? (base : Nat) : Text → Option Nat
  | [] => none
  | t => readFrom? base 0 t

/-- The most digits that are converted in a base that is no power of two. -/
def maxDigits : Nat := 4300

/-- Whether so many digits are too many to be converted. -/
def exceedsLimit (base count : Nat) : Bool :=
  !([2, 4, 8, 16, 32].contains base) && maxDigits < count

end Backtrack.Numeral
