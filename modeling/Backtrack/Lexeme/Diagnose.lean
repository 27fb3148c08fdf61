import Backtrack.Parser.Build
import Backtrack.Span.Adjust
import Backtrack.Text.Class

/-!
# Errors of lexical rules

The error values of lexical rules are diagnostics.  Where a construct is broken off, the span is
grown backwards over what had introduced it.
-/

namespace Backtrack.Lexeme

/-- The error at a span. -/
def report (message : Text) (s : Span) : Except Fault Value :=
  .ok (.diagnostic (s.diagnostic (some message)))

/-- The error at a span grown over the `more` items before it. -/
def reportFrom (more : Nat) (message : Text) (s : Span) : Except Fault Value := do
  report message (← s.growBefore more)

/-- Refuses a letter or an underscore right after a number. -/
def noLetterAfter : Parser :=
  .forbid (.charOf Text.Class.identifierStart) fun s c =>
    report
      (.ofString "Unexpected character `" ++ c.display ++ .ofString "` after a number.") s

/-- An optional minus before a parser; the output is the pair. -/
def signed (unsigned : Parser) : Parser :=
  .seq (.optional (.word (.ofChars ['-']))) unsigned

end Backtrack.Lexeme
