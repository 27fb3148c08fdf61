import Backtrack.Decimal.Binary64
import Backtrack.Range
import Backtrack.Span

/-!
# Values

What parsers take as items and give as outputs and errors.  Values are equal by their contents:
an integer equals the number in binary64 that it is, a byte string equals one that is held in
another way, and a range is its members.  Only a NaN equals nothing, and yet it is found where that
very object is a member.  So there are two questions: `Value.same` asks whether two values are one
object or equal, as collections do with their members, and `==` asks whether they are equal.
-/

namespace Backtrack

/-- How a byte string is held. -/
inductive Storage where
  | fixed
  | growable
  /-- A view of a fixed byte string. -/
  | view
  /-- A view through which the bytes may be written. -/
  | writableView
  deriving DecidableEq

/-- A value.  The last three constructors are outcomes of parsing, which are values as well. -/
inductive Value where
  | nothing
  | text (t : Text)
  | int (i : Int)
  | float (x : Binary64)
  /-- No number.  Each is an object of its own. -/
  | nan (object : Nat)
  | list (items : List Value)
  | tuple (items : List Value)
  | bytes (storage : Storage) (data : List UInt8)
  /-- A token that a caller's lexer made: it has equality but no hash. -/
  | token (text : Text)
  | span (s : Span)
  | range (r : Range)
  | diagnostic (d : Diagnostic)
  | matched (value : Value)
  | notMatched
  | failed (error : Value)

namespace Value

mutual

/-- Whether two values are one object or equal. -/
def same : Value → Value → Bool
  | nothing, nothing => true
  | text s, text t => s == t
  | int i, int j => i == j
  | int i, float x => x.toInt? == some i
  | float x, int i => x.toInt? == some i
  | float x, float y => x.same y
  | nan a, nan b => a == b
  | list xs, list ys => sameItems xs ys
  | tuple xs, tuple ys => sameItems xs ys
  | bytes _ xs, bytes _ ys => xs == ys
  | token s, token t => s == t
  | span s, span t => s == t
  | range r, range s => r.same s
  | diagnostic d, diagnostic e => d == e
  | matched x, matched y => same x y
  | notMatched, notMatched => true
  | failed x, failed y => same x y
  | _, _ => false

/-- Whether the items of two sequences are so, one by one. -/
def sameItems : List Value → List Value → Bool
  | [], [] => true
  | x :: xs, y :: ys => same x y && sameItems xs ys
  | _, _ => false

end

def isNaN : Value → Bool
  | nan _ => true
  | _ => false

/-- Whether two values are equal. -/
def equals (v w : Value) : Bool := !v.isNaN && v.same w

instance : BEq Value := ⟨equals⟩

instance : Inhabited Value := ⟨nothing⟩

/-- The integer that a value equals, if there is one. -/
def toInt? : Value → Option Int
  | int i => some i
  | float x => x.toInt?
  | _ => none

/-- What keeps a value from being hashed. -/
inductive Obstacle where
  /-- Values of its kind have no hash. -/
  | kind
  /-- Its bytes may still be written. -/
  | writable
  deriving DecidableEq

mutual

/-- What keeps a value from being hashed: the first part that has no hash tells. -/
def obstacle? : Value → Option Obstacle
  | list _ => some .kind
  | token _ => some .kind
  | bytes .growable _ => some .kind
  | bytes .writableView _ => some .writable
  | tuple items => obstacleAmong? items
  | matched x => obstacle? x
  | failed x => obstacle? x
  | _ => none

/-- What keeps the values from being hashed one after the other. -/
def obstacleAmong? : List Value → Option Obstacle
  | [] => none
  | x :: xs => (obstacle? x).or (obstacleAmong? xs)

end

/-- Whether a value can be a member of a hashed collection. -/
def isHashable (v : Value) : Bool := v.obstacle?.isNone

/-- But for a NaN, there is no difference between the two questions. -/
theorem beq_eq_same {v : Value} (h : v.isNaN = false) (w : Value) : (v == w) = v.same w := by
  show (!v.isNaN && v.same w) = v.same w
  rw [h]
  rfl

/-- The one-item text of a code point. -/
def char (c : CodePoint) : Value := text [c]

/-- A byte as an item of a byte string. -/
def byte (b : UInt8) : Value := int b.toNat

end Value

/-- What parsing at a place came to. -/
inductive Outcome where
  /-- The parser matched and produced a value. -/
  | matched (value : Value)
  /-- Nothing matches here; alternatives may be tried. -/
  | notMatched
  /-- The input is wrong, and the error is to be reported. -/
  | failed (error : Value)

namespace Outcome

/-- An outcome as a value. -/
def toValue : Outcome → Value
  | matched v => .matched v
  | notMatched => .notMatched
  | failed e => .failed e

def isMatched : Outcome → Bool
  | matched _ => true
  | _ => false

@[simp] theorem isMatched_matched (v : Value) : (matched v).isMatched = true := rfl
@[simp] theorem isMatched_notMatched : notMatched.isMatched = false := rfl
@[simp] theorem isMatched_failed (e : Value) : (failed e).isMatched = false := rfl

end Outcome

end Backtrack
