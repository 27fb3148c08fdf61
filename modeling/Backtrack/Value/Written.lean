import Backtrack.Decimal.Shortest
import Backtrack.Text.Quoted
import Backtrack.Value.Basic

/-!
# The written form of values

`Value.written` is the unambiguous form, used in log messages and in refusals; `Value.display` is
the form for a reader, which for a diagnostic is its message and for a span its short form.
-/

namespace Backtrack

/-- The written form of a diagnostic. -/
def Diagnostic.written (d : Diagnostic) : String :=
  let message := match d.message with
    | some m => m.quoted
    | none => "None"
  s!"ParseError({d.span.brief}, {message})"

/-- The message of a diagnostic, empty if it has none. -/
def Diagnostic.display (d : Diagnostic) : Text := d.message.getD []

namespace Value

/-- The written form of a byte string, marked by how it is held. -/
def writtenBytes (storage : Storage) (data : List UInt8) : String :=
  match storage with
  | .fixed => quotedBytes data
  | .growable => "bytearray(" ++ quotedGrowableBytes data ++ ")"
  | .view => "<memory>"
  | .writableView => "<memory>"

mutual

/-- The unambiguous written form. -/
def written : Value → String
  | nothing => "None"
  | text t => t.quoted
  | int i => toString i
  | float x => x.written
  | nan _ => "nan"
  | list xs => "[" ++ writtenItems xs ++ "]"
  | tuple [] => "()"
  | tuple [x] => "(" ++ written x ++ ",)"
  | tuple (x :: y :: xs) => "(" ++ written x ++ ", " ++ writtenItems (y :: xs) ++ ")"
  | bytes storage data => writtenBytes storage data
  | token t => "Name(text=" ++ t.quoted ++ ")"
  | span s => s.written
  | range r => r.written
  | diagnostic d => d.written
  | matched x => "Matched(value=" ++ written x ++ ")"
  | notMatched => "NOT_MATCHED"
  | failed x => "Failed(error=" ++ written x ++ ")"

/-- The written forms of items, separated by commas. -/
def writtenItems : List Value → String
  | [] => ""
  | [x] => written x
  | x :: y :: xs => written x ++ ", " ++ writtenItems (y :: xs)

end

/-- The form for a reader. -/
def display : Value → Text
  | span s => Text.ofString s.brief
  | diagnostic d => d.display
  | text t => t
  | v => Text.ofString v.written

end Value

end Backtrack
