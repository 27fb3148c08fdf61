import Backtrack.Fault

/-!
# Taking outputs apart

The functions on outputs that lexical rules need, components of tuples and joined texts, and the
part of a sequence that a span covers.
-/

namespace Backtrack.Value

/-- A component of a tuple. -/
def part (i : Nat) (v : Value) : Except Fault Value :=
  match v with
  | tuple xs =>
    match xs[i]? with
    | some x => .ok x
    | none => .error (.unexpectedShape v)
  | _ => .error (.unexpectedShape v)

/-- The text that a value is. -/
def asText : Value → Except Fault Text
  | text t => .ok t
  | v => .error (.notAText v)

/-- The text that an optional output is, empty if there is none. -/
def asOptionalText : Value → Except Fault Text
  | nothing => .ok []
  | v => v.asText

/-- The texts of a list, joined. -/
def joinedText : Value → Except Fault Text
  | list xs => do return (← xs.mapM asText).flatten
  | v => .error (.unexpectedShape v)

/-- The texts of a list, joined, as an output. -/
def joined (v : Value) : Except Fault Value := do
  return text (← v.joinedText)

/-- The part of a sequence that a span covers, in a sequence of the same kind. -/
def cut (s : Span) : Value → Option Value
  | text t => some (text (s.cut t))
  | list xs => some (list (s.cut xs))
  | tuple xs => some (tuple (s.cut xs))
  | bytes storage data => some (bytes storage (s.cut data))
  | range r => some (range (r.slice s.start s.stop))
  | _ => none

end Backtrack.Value
