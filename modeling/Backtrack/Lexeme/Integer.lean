import Backtrack.Lexeme.Diagnose
import Backtrack.Numeral
import Backtrack.Value.Parts

/-!
# Integers

An optional minus and digits.  With a base given, the digits are those of the base; without one,
the numeral is decimal unless a mark announces another radix, after which a digit is required.
-/

namespace Backtrack.Lexeme

/-- A base with its digits. -/
structure Radix where
  base : Nat
  digits : Text
  /-- How messages name it. -/
  name : String

namespace Radix

def binary : Radix := ⟨2, Text.Class.binary, "binary"⟩

def octal : Radix := ⟨8, Text.Class.octal, "octal"⟩

def decimal : Radix := ⟨10, Text.Class.decimal, "decimal"⟩

def hexadecimal : Radix := ⟨16, Text.Class.hexadecimal, "hexadecimal"⟩

/-- The radix with a base. -/
def ofBase? (base : Int) : Option Radix :=
  [binary, octal, decimal, hexadecimal].find? fun r => (r.base : Int) == base

/-- The number that a list of digits denotes, unless they are too many to be converted. -/
def number (r : Radix) (digits : Value) : Except Fault Value := do
  let t ← digits.joinedText
  if Numeral.exceedsLimit r.base t.length then .error (.tooManyDigits t.length)
  else
    match Numeral.read? r.base t with
    | some n => .ok (.int n)
    | none => .error (.unexpectedShape digits)

/-- A run of digits. -/
def numeral (r : Radix) : Parser := .map (.many1 (.charOf r.digits)) r.number

/-- A run of digits after a mark, which makes a digit necessary. -/
def marked (r : Radix) (mark : Text) : Parser :=
  .map
    (.seq (.word mark)
      (.require r.numeral (reportFrom mark.length
        (.ofString "Expected a " ++ .ofString r.name ++ .ofString " digit after " ++ mark ++
          .ofString "."))))
    (Value.part 1)

end Radix

/-- Digits of the radix that a mark announces, or decimal digits. -/
def anyNumeral : Parser :=
  .choice (Radix.binary.marked (.ofChars ['0', 'b']))
    [Radix.octal.marked (.ofChars ['0', 'o']), Radix.hexadecimal.marked (.ofChars ['0', 'x']),
      Radix.decimal.numeral]

/-- Gives a number the sign that stands before it. -/
def applySign : Value → Except Fault Value
  | .tuple [.nothing, v] => .ok v
  | .tuple [_, .int i] => .ok (.int (-i))
  | v => .error (.unexpectedShape v)

/-- A signed integer with the given parser of its digits; no letter may follow. -/
def integerOf (numeral : Parser) : Parser :=
  .lookingAt (.map (signed numeral) applySign) noLetterAfter

/-- A signed integer of a base, or of the radix that its mark announces if the base is zero. -/
def integer (base : Int) : Except Fault Parser :=
  if base = 0 then .ok (integerOf anyNumeral)
  else
    match Radix.ofBase? base with
    | some r => .ok (integerOf r.numeral)
    | none => .error (.unsupportedBase base)

end Backtrack.Lexeme
