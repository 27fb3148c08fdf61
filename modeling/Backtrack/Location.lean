import Backtrack.Span

/-!
# Lines and columns

The place of an offset in a text as a line and a column, both counted from one.  Lines end with a
line feed, which is the last character of its line.  An offset past the end is the end.
-/

namespace Backtrack

/-- A place in a text. -/
structure Location where
  line : Nat
  column : Nat
  deriving DecidableEq

namespace Location

/-- The line feed. -/
def lineFeed : CodePoint := .ofChar '\n'

/-- Moves over a character. -/
def step (l : Location) (c : CodePoint) : Location :=
  if c = lineFeed then ⟨l.line + 1, 1⟩ else ⟨l.line, l.column + 1⟩

/-- The place of an offset. -/
def ofOffset (source : Text) (offset : Nat) : Location :=
  (source.take offset).foldl step ⟨1, 1⟩

end Location

namespace Diagnostic

/-- The note that tells where in a text a diagnostic stands. -/
def noteIn (d : Diagnostic) (source : Text) : String :=
  let position := min d.span.start source.length
  let place := Location.ofOffset source position
  s!"At position {position} (line {place.line}, column {place.column})"

end Diagnostic

end Backtrack
