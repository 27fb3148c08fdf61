import Backtrack.Numeral
import Backtrack.Text.Class

/-!
# Decimal numbers

A decimal is a signed integer times a power of ten.  `Decimal.read?` reads the usual written form:
an optional minus, digits, an optional point and fraction, an optional exponent.  Digits may be
missing on one side of the point, but not on both.
-/

namespace Backtrack

/-- The number `± digits * 10 ^ exponent`; zero keeps its sign. -/
structure Decimal where
  negative : Bool
  digits : Nat
  exponent : Int
  deriving DecidableEq

namespace Decimal

/-- The longest run of decimal digits that a text starts with, and what follows it. -/
def splitDigits (t : Text) : Text × Text :=
  (t.takeWhile (Text.Class.decimal.contains ·), t.dropWhile (Text.Class.decimal.contains ·))

/-- The number of a possibly empty run of digits. -/
def digitsValue (t : Text) : Nat := (Numeral.readFrom? 10 0 t).getD 0

/-- Reads an exponent after its letter: an optional sign and digits up to the end. -/
def readExponent? (t : Text) : Option Int :=
  let unsigned (t : Text) : Option Nat := Numeral.read? 10 t
  match t with
  | c :: rest =>
    if c = CodePoint.ofChar '-' then (unsigned rest).map fun n => -(n : Int)
    else if c = CodePoint.ofChar '+' then (unsigned rest).map Int.ofNat
    else (unsigned t).map Int.ofNat
  | [] => none

/-- What stands after the fraction: nothing, or an exponent introduced by its letter. -/
def readTail? : Text → Option Int
  | [] => some 0
  | c :: rest =>
    if c = CodePoint.ofChar 'e' ∨ c = CodePoint.ofChar 'E' then readExponent? rest else none

/-- Reads a decimal without a sign. -/
def readUnsigned? (t : Text) : Option (Nat × Int) :=
  let (whole, rest) := splitDigits t
  let (fraction, rest) :=
    match rest with
    | c :: rest' => if c = CodePoint.ofChar '.' then splitDigits rest' else ([], rest)
    | [] => ([], [])
  if whole.isEmpty && fraction.isEmpty then none
  else (readTail? rest).map fun e => (digitsValue (whole ++ fraction), e - fraction.length)

/-- Reads a decimal from the whole of a text. -/
def read? (t : Text) : Option Decimal :=
  match t with
  | c :: rest =>
    if c = CodePoint.ofChar '-' then
      (readUnsigned? rest).map fun (d, e) => ⟨true, d, e⟩
    else (readUnsigned? t).map fun (d, e) => ⟨false, d, e⟩
  | [] => none

end Decimal

end Backtrack
