import Backtrack.Grammar

/-!
# Parsing expression grammars

The standard meaning of parsing expressions, and the expression that a parser stands for.  An
expression succeeds at a position and ends at another, or it fails, or neither can be derived: the
repetition of an expression that succeeds without moving has no derivation, and no left recursion
has one.

* `Peg`, `Peg.Derives`: expressions and their big-step semantics.
* `Parser.peg`: the expression of a parser; `Grammar.rules`: the expressions of a grammar's handles.
* `Parser.IsPeg`, `Grammar.IsPeg`: the parsers and grammars for which these are meant.
* `Run.CameTo`: a run ended as an expression does.
-/

namespace Backtrack

/-- A parsing expression over items, with numbered rules. -/
inductive Peg where
  | empty
  /-- One item that is accepted. -/
  | terminal (accepts : Value → Bool)
  | call (rule : Nat)
  | seq (first second : Peg)
  /-- The second only where the first fails. -/
  | alt (first second : Peg)
  /-- As often as possible. -/
  | star (body : Peg)
  /-- Succeeds exactly where the body fails, and never moves. -/
  | not (body : Peg)

namespace Peg

/-- Any one item. -/
def any : Peg := terminal fun _ => true

/-- Succeeds exactly where the expression does, and never moves. -/
def and (e : Peg) : Peg := not (not e)

/-- The expression, or nothing. -/
def opt (e : Peg) : Peg := alt e empty

/-- The expression `n` times, then another one. -/
def exactly (e : Peg) : Nat → Peg → Peg
  | 0, last => last
  | n + 1, last => seq e (exactly e n last)

/-- The expression as often as possible, up to `n` times. -/
def upTo (e : Peg) : Nat → Peg
  | 0 => empty
  | n + 1 => opt (seq e (upTo e n))

/-- What remains of a repetition after `count` matches. -/
def rest (b : Bounds) (e : Peg) (count : Nat) : Peg :=
  exactly e (b.least - count)
    (match b.most with
      | none => star e
      | some most => upTo e (most - max b.least count))

/-- The items of `pattern` from its index `k` on, `count` of them. -/
def word (pattern : Items) (k : Nat) : Nat → Peg
  | 0 => empty
  | count + 1 =>
    seq (terminal fun v => (pattern.get? k).any (v == ·)) (word pattern (k + 1) count)

/-- `Derives rules items e i o`: at position `i` the expression succeeds and ends at `j`, if `o` is
`some j`, or fails, if `o` is `none`. -/
inductive Derives (rules : Nat → Option Peg) (items : Items) : Peg → Nat → Option Nat → Prop
  | empty {i : Nat} : Derives rules items empty i (some i)
  | terminal {accepts : Value → Bool} {i : Nat} (h : (items.get? i).any accepts) :
    Derives rules items (terminal accepts) i (some (i + 1))
  | terminal_fails {accepts : Value → Bool} {i : Nat} (h : ¬(items.get? i).any accepts) :
    Derives rules items (terminal accepts) i none
  | call {n i : Nat} {e : Peg} {o : Option Nat} (h : rules n = some e)
    (body : Derives rules items e i o) : Derives rules items (call n) i o
  | seq {a b : Peg} {i j : Nat} {o : Option Nat} (first : Derives rules items a i (some j))
    (second : Derives rules items b j o) : Derives rules items (seq a b) i o
  | seq_fails {a b : Peg} {i : Nat} (first : Derives rules items a i none) :
    Derives rules items (seq a b) i none
  | alt_first {a b : Peg} {i j : Nat} (first : Derives rules items a i (some j)) :
    Derives rules items (alt a b) i (some j)
  | alt_second {a b : Peg} {i : Nat} {o : Option Nat} (first : Derives rules items a i none)
    (second : Derives rules items b i o) : Derives rules items (alt a b) i o
  | star_stops {e : Peg} {i : Nat} (body : Derives rules items e i none) :
    Derives rules items (star e) i (some i)
  | star_goes_on {e : Peg} {i j k : Nat} (body : Derives rules items e i (some j))
    (rest : Derives rules items (star e) j (some k)) : Derives rules items (star e) i (some k)
  | not {e : Peg} {i : Nat} (body : Derives rules items e i none) :
    Derives rules items (not e) i (some i)
  | not_fails {e : Peg} {i j : Nat} (body : Derives rules items e i (some j)) :
    Derives rules items (not e) i none

end Peg

/-! ### Parsers as expressions -/

mutual

/-- The expression that a parser stands for.  The combinators that none stands for, such as a
caller's function, do not occur under `Parser.IsPeg`. -/
def Parser.peg : Parser → Peg
  | .literal pattern _ => .word pattern 0 pattern.size
  | .oneOf group => .terminal group.contains
  | .item => .any
  | .empty => .empty
  | .atEnd => .not .any
  | .seq first second => .seq first.peg second.peg
  | .choice first others => Parser.pegAmong first.peg others
  | .optional parser => .opt parser.peg
  | .absent parser => .not parser.peg
  | .times parser bounds => .rest bounds parser.peg 0
  | .map parser _ => parser.peg
  | .lookingAt parser peek => .seq parser.peg (.and peek.peg)
  | .handle number => .call number
  | _ => .empty

/-- The ordered choice between an expression and the expressions of parsers. -/
def Parser.pegAmong (first : Peg) : List Parser → Peg
  | [] => first
  | p :: ps => .alt first (Parser.pegAmong p.peg ps)

end

/-- A parser that is built from the combinators with an expression, functions on outputs that never
raise, and handles that are defined. -/
inductive Parser.IsPeg (g : Grammar) : Parser → Prop
  | literal (pattern : Items) (output : Value) : IsPeg g (.literal pattern output)
  | oneOf (group : Items) : IsPeg g (.oneOf group)
  | item : IsPeg g .item
  | empty : IsPeg g .empty
  | atEnd : IsPeg g .atEnd
  | seq {p q : Parser} (first : IsPeg g p) (second : IsPeg g q) : IsPeg g (.seq p q)
  | choice {p : Parser} {ps : List Parser} (first : IsPeg g p) (others : ∀ q ∈ ps, IsPeg g q) :
    IsPeg g (.choice p ps)
  | optional {p : Parser} (body : IsPeg g p) : IsPeg g (.optional p)
  | absent {p : Parser} (body : IsPeg g p) : IsPeg g (.absent p)
  | times {p : Parser} (bounds : Bounds) (body : IsPeg g p) : IsPeg g (.times p bounds)
  | map {p : Parser} {function : Value → Except Fault Value} (body : IsPeg g p)
    (total : ∀ v, ∃ w, function v = .ok w) : IsPeg g (.map p function)
  | lookingAt {p q : Parser} (body : IsPeg g p) (peek : IsPeg g q) : IsPeg g (.lookingAt p q)
  | handle {n : Nat} (defined : g.isDefined n) : IsPeg g (.handle n)

namespace Grammar

/-- The expressions of the handles. -/
def rules (g : Grammar) (n : Nat) : Option Peg := (g.definition? n).map Parser.peg

/-- A grammar whose definitions all have expressions. -/
def IsPeg (g : Grammar) : Prop := ∀ n p, g.definition? n = some p → p.IsPeg g

end Grammar

/-- What a run comes to, in the terms of expressions: it matched and left the stream at `j`, or it
did not match. -/
def Run.CameTo (r : Run Cursor) : Option Nat → Prop
  | some j => (∃ v, r.ending = .answered (.matched v)) ∧ r.state.position = j
  | none => r.ending = .answered .notMatched

end Backtrack
