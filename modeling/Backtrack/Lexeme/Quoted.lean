import Backtrack.Lexeme.Diagnose
import Backtrack.Numeral
import Backtrack.Value.Parts

/-!
# Quoted texts

A quoted text stands between two equal quotes.  After an escape, sequences of the caller's table
are tried in order, then parsers of the caller's, then the code point escape, and any other item
stands for itself.  A raw text has no escapes and is introduced by a mark.
-/

namespace Backtrack.Lexeme

/-- Four hexadecimal digits as the code point with that number. -/
def codePoint : Value → Except Fault Value
  | .tuple [_, digits] => do
    match Numeral.read? 16 (← digits.joinedText) with
    | some n =>
      if h : n < 0x110000 then .ok (.char ⟨n, h⟩) else .error (.unexpectedShape digits)
    | none => .error (.unexpectedShape digits)
  | v => .error (.unexpectedShape v)

/-- The letter `u` and the four hexadecimal digits that it makes necessary. -/
def codePointEscape : Parser :=
  .map
    (.seq (.word (.ofChars ['u']))
      (.require (.times (.charOf Text.Class.hexadecimal) (.exactly 4))
        (reportFrom 1
          (.ofString "Expected 4 hexadecimal characters after unicode escape sequence."))))
    codePoint

/-- How quoted texts are written. -/
structure Quoting where
  /-- The quotes, in the order in which they are tried. -/
  quotes : List Text
  escape : Text
  /-- The escape sequences and what they stand for, in the order in which they are tried. -/
  sequences : List (Text × Text)
  /-- Parsers that are tried after the sequences. -/
  advanced : List Parser

namespace Quoting

/-- The double quote and the single quote. -/
def standardQuotes : List Text := [.ofChars ['"'], .ofChars ['\'']]

/-- The letters for backspace, form feed, line feed, carriage return and tab. -/
def standardSequences : List (Text × Text) :=
  [(.ofChars ['b'], .ofChars ['\x08']), (.ofChars ['f'], .ofChars ['\x0c']),
    (.ofChars ['n'], .ofChars ['\n']), (.ofChars ['r'], .ofChars ['\r']),
    (.ofChars ['t'], .ofChars ['\t'])]

/-- Standard quotes, a backslash as the escape, and the standard sequences. -/
def standard : Quoting := ⟨standardQuotes, .ofChars ['\\'], standardSequences, []⟩

/-- What may follow an escape. -/
def escapable (q : Quoting) : Parser :=
  let alternatives :=
    q.sequences.map (fun (sequence, result) =>
      Parser.map (.word sequence) fun _ => .ok (.text result)) ++ q.advanced
  match alternatives with
  | [] => .choice codePointEscape [.item]
  | p :: ps => .choice p (ps ++ [codePointEscape, .item])

/-- An escape and what follows it. -/
def escaped (q : Quoting) : Parser :=
  .map
    (.seq (.word q.escape)
      (.require q.escapable (reportFrom q.escape.length
        (.ofString "Expected a character to escape after `" ++ q.escape ++ .ofString "`."))))
    (Value.part 1)

/-- An item that starts neither the closing quote nor an escape. -/
def plain (q : Quoting) (quote : Text) : Parser :=
  .map (.seq (.absent (.choice (.word quote) [.word q.escape])) .item) (Value.part 1)

/-- What stands between quotes. -/
def content (q : Quoting) (quote : Text) : Parser :=
  .map (.many (.choice q.escaped [q.plain quote])) Value.joined

/-- The closing quote, whose absence names the place of the opening one. -/
def closing (quote : Text) (opening : Value) : Except Fault Parser := do
  let place ← opening.part 0
  return .require (.word quote) (report
    (.ofString "Expected closing quote `" ++ quote ++ .ofString "` for the quote opened at " ++
      place.display ++ .ofString "."))

/-- A text between two of the given quotes. -/
def between (q : Quoting) (quote : Text) : Parser :=
  .map
    (.seqBy (.withSpan (.word quote)) fun opening => do
      return .seq (q.content quote) (← closing quote opening))
    fun v => do (← v.part 1).part 0

/-- A text between two equal quotes. -/
def parser (q : Quoting) : Except Fault Parser := Parser.choiceOf (q.quotes.map q.between)

end Quoting

/-- What stands between quotes without escapes. -/
def rawContent (quote : Text) : Parser :=
  .map (.many (.map (.seq (.absent (.word quote)) .item) (Value.part 1))) Value.joined

/-- A text between two of the given quotes without escapes, introduced by a mark. -/
def rawBetween (mark quote : Text) : Parser :=
  .map
    (.seq (.seq (.word (mark ++ quote)) (rawContent quote))
      (.require (.word quote) (report
        (.ofString "Expected closing quote `" ++ quote ++ .ofString "`."))))
    fun v => do (← v.part 0).part 1

/-- A text between two equal quotes without escapes, introduced by a mark. -/
def rawQuoted (mark : Text) (quotes : List Text) : Except Fault Parser :=
  Parser.choiceOf (quotes.map (rawBetween mark))

end Backtrack.Lexeme
