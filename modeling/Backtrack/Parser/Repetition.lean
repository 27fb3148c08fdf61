import Backtrack.Parser.Basic

/-!
# Repetition

The loop of a repetition: attempts are made from where the last one ended, until one does not match
or the bounds allow no more.  The loop collects outputs and log entries in reverse, the last first,
so its depth does not grow with the number of matches.
-/

namespace Backtrack

namespace Bounds

/-- How many attempts to allow from a cursor.  Without an upper bound every match consumes an item,
so there is at most one attempt more than items left. -/
def budget (b : Bounds) (items : Items) (c : Cursor) : Nat :=
  b.most.getD (c.left items + 1)

end Bounds

/-- What a repetition comes to with the outputs collected so far, the last first. -/
def Bounds.conclude (b : Bounds) (outputs : List Value) : Outcome :=
  if outputs.length < b.least then .notMatched else .matched (.list outputs.reverse)

/-- Repeats `body` up to `budget` more times.  An unbounded repetition must not match without moving
on, and it cannot use up the budget that `Bounds.budget` grants. -/
def repeatFrom (b : Bounds) (body : Cursor → Run Cursor) :
    Nat → List Value → List Entry → Cursor → Run Cursor
  | 0, outputs, entries, c =>
    match b.most with
    | some _ => ⟨.answered (b.conclude outputs), c, entries.reverse⟩
    | none => ⟨.exhausted, c, entries.reverse⟩
  | budget + 1, outputs, entries, c =>
    let r := body c
    let entries := r.log.reverse ++ entries
    match r.ending with
    | .answered (.matched v) =>
      if b.most.isNone && r.state.position == c.position then
        ⟨.raised .endlessRepetition, r.state, entries.reverse⟩
      else repeatFrom b body budget (v :: outputs) entries r.state
    | .answered .notMatched => ⟨.answered (b.conclude outputs), r.state, entries.reverse⟩
    | ending => ⟨ending, r.state, entries.reverse⟩

section Loop

variable (b : Bounds) (body : Cursor → Run Cursor)

/-- What was logged before the loop stands before what it logs. -/
theorem repeatFrom_entries (budget : Nat) (outputs : List Value) (entries : List Entry)
    (c : Cursor) :
    repeatFrom b body budget outputs entries c =
      (repeatFrom b body budget outputs [] c).after entries.reverse := by
  induction budget generalizing outputs entries c with
  | zero =>
    unfold repeatFrom
    split <;> simp [Run.after]
  | succ budget ih =>
    unfold repeatFrom
    dsimp only
    split
    · split
      · simp [Run.after]
      · rw [ih _ (_ ++ entries), ih _ (_ ++ [])]
        simp [Run.after]
    · simp [Run.after]
    · simp [Run.after]

/-- One attempt of the loop, and how it goes on. -/
theorem repeatFrom_succ (budget : Nat) (outputs : List Value) (c : Cursor) :
    repeatFrom b body (budget + 1) outputs [] c =
      (body c).andThen fun
        | .matched v, d =>
          if b.most.isNone && d.position == c.position then .raise .endlessRepetition d
          else repeatFrom b body budget (v :: outputs) [] d
        | .notMatched, d => .answer (b.conclude outputs) d
        | .failed e, d => .answer (.failed e) d := by
  rw [repeatFrom]
  cases hr : (body c).ending with
  | exhausted => simp [Run.andThen_of_exhausted hr, ← hr]
  | raised f => simp [Run.andThen_of_raised hr, ← hr]
  | answered o =>
    rw [Run.andThen_of_answered hr]
    cases o with
    | matched v =>
      dsimp only
      split
      · simp [Run.raise, Run.after]
      · rw [repeatFrom_entries]
        simp
    | notMatched => simp [Run.answer, Run.after]
    | failed e => simp [Run.answer, Run.after]

end Loop

end Backtrack
