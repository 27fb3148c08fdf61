import Backtrack.Decimal.Binary64
import Backtrack.Lexeme.Diagnose
import Backtrack.Value.Parts

/-!
# Decimal numbers with a point or an exponent

The value is the binary64 number nearest to the decimal that is written.  A plain integer is none
of these numerals.
-/

namespace Backtrack.Lexeme

/-- A run of decimal digits. -/
def digitRun : Parser := .map (.many1 (.charOf Text.Class.decimal)) Value.joined

/-- The point of a decimal. -/
def point : Parser := .word (.ofChars ['.'])

/-- An exponent; the output writes its letter in lowercase. -/
def exponent : Parser :=
  .map
    (.seq
      (.seq (.charOf (.ofChars ['e', 'E'])) (.optional (.charOf (.ofChars ['+', '-']))))
      digitRun)
    fun
      | .tuple [.tuple [_, sign], digits] => do
        return .text (.ofChars ['e'] ++ (← sign.asOptionalText) ++ (← digits.asText))
      | v => .error (.unexpectedShape v)

/-- Digits on both sides of a point, then perhaps an exponent. -/
def pointed : Parser :=
  .map (.seq (.seq (.seq digitRun point) digitRun) (.optional exponent))
    fun
      | .tuple [.tuple [.tuple [whole, _], fraction], e] => do
        return .text ((← whole.asText) ++ .ofChars ['.'] ++ (← fraction.asText) ++
          (← e.asOptionalText))
      | v => .error (.unexpectedShape v)

/-- Digits, perhaps a point, and an exponent; the output leaves out the point. -/
def scaled : Parser :=
  .map (.seq (.seq digitRun (.optional point)) exponent)
    fun
      | .tuple [.tuple [whole, _], e] => do return .text ((← whole.asText) ++ (← e.asText))
      | v => .error (.unexpectedShape v)

/-- A point and digits, then perhaps an exponent. -/
def fractional : Parser :=
  .map (.seq (.seq point digitRun) (.optional exponent))
    fun
      | .tuple [.tuple [_, fraction], e] => do
        return .text (.ofChars ['.'] ++ (← fraction.asText) ++ (← e.asOptionalText))
      | v => .error (.unexpectedShape v)

/-- The number nearest to a decimal, given its sign and the rest of it. -/
def nearestNumber : Value → Except Fault Value
  | .tuple [sign, unsigned] => do
    let t := (← sign.asOptionalText) ++ (← unsigned.asText)
    match Decimal.read? t with
    | some d => .ok (.float (.ofDecimal d))
    | none => .error (.unexpectedShape (.text t))
  | v => .error (.unexpectedShape v)

/-- A signed decimal with a fraction, an exponent or both; no letter may follow. -/
def real : Parser :=
  .lookingAt (.map (signed (.choice pointed [scaled, fractional])) nearestNumber) noLetterAfter

end Backtrack.Lexeme
