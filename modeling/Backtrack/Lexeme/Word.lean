import Backtrack.Parser.Build
import Backtrack.Text.Class
import Backtrack.Value.Parts

/-!
# Blanks and words

Whitespace, identifiers and keywords.  A keyword is not the start of a longer identifier.
-/

namespace Backtrack.Lexeme

open Text (Class.whitespace Class.identifierStart Class.identifierContinue)

/-- One whitespace character. -/
def blank : Parser := .charOf Class.whitespace

/-- Any number of whitespace characters. -/
def blanks : Parser := blank.many.void

/-- One whitespace character or more. -/
def blanks1 : Parser := blank.many1.void

/-- Joins a first character and the list of those after it. -/
def spell : Value → Except Fault Value
  | .tuple [first, rest] => do return .text ((← first.asText) ++ (← rest.joinedText))
  | v => .error (.unexpectedShape v)

/-- A letter or an underscore, then letters, digits and underscores. -/
def identifier : Parser :=
  .map (.seq (.charOf Class.identifierStart) (.many (.charOf Class.identifierContinue))) spell

/-- A word that no identifier character follows. -/
def keyword (w : Text) : Parser :=
  .lookingAt (.word w) (.absent (.charOf Class.identifierContinue))

end Backtrack.Lexeme
