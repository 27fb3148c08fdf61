import Backtrack.Proofs.Tiling
import Backtrack.Proofs.Findings

/-!
# Lookahead

A lookahead runs its parser on a fork that is never merged, so it leaves its stream as it was in
whatever way the parser ends, and whatever the rules in the parser do with the streams they are
given.  What it comes to is a function of how the parser ends on the stream itself.

* `Ending.onMatch`, `Ending.orElse`, `Ending.negate`: how the endings of parts make up that of the
  whole, for every parser; there is one rule for each combinator, `Parser.ending_lookingAt` and the
  like.
* `Stays`: a body that leaves every stream as it was.
* `Ending.Negated`, `Ending.Denied`: what negative lookaheads come to, as equivalences.
* `lookahead_never_consumes`: the law.
-/

namespace Backtrack

/-! ### Endings -/

namespace Ending

/-- What a caller's function comes to. -/
def ofExcept : Except Fault Outcome → Ending
  | .ok o => .answered o
  | .error f => .raised f

/-- Goes on from an outcome; any other end is final. -/
def onAnswer : Ending → (Outcome → Ending) → Ending
  | .answered o, next => next o
  | e, _ => e

/-- Goes on from a match; any other end is final. -/
def onMatch : Ending → (Value → Ending) → Ending
  | .answered (.matched v), next => next v
  | e, _ => e

/-- Goes on where the run declined; any other end is final. -/
def orElse : Ending → Ending → Ending
  | .answered .notMatched, e => e
  | e, _ => e

/-- Exchanges matches and non-matches; any other end stays. -/
def negate : Ending → Ending
  | .answered (.matched _) => .answered .notMatched
  | .answered .notMatched => .answered (.matched .nothing)
  | e => e

variable (o : Outcome) (v e : Value) (f : Fault) (reply : Outcome → Ending) (next : Value → Ending)
  (x : Ending)

@[simp] theorem onAnswer_answered : (answered o).onAnswer reply = reply o := rfl
@[simp] theorem onAnswer_raised : (raised f).onAnswer reply = .raised f := rfl
@[simp] theorem onAnswer_exhausted : exhausted.onAnswer reply = .exhausted := rfl
@[simp] theorem onMatch_matched : (answered (.matched v)).onMatch next = next v := rfl
@[simp] theorem onMatch_notMatched :
    (answered .notMatched).onMatch next = .answered .notMatched := rfl
@[simp] theorem onMatch_failed :
    (answered (.failed e)).onMatch next = .answered (.failed e) := rfl
@[simp] theorem onMatch_raised : (raised f).onMatch next = .raised f := rfl
@[simp] theorem onMatch_exhausted : exhausted.onMatch next = .exhausted := rfl
@[simp] theorem orElse_matched : (answered (.matched v)).orElse x = .answered (.matched v) := rfl
@[simp] theorem orElse_notMatched : (answered .notMatched).orElse x = x := rfl
@[simp] theorem orElse_failed : (answered (.failed e)).orElse x = .answered (.failed e) := rfl
@[simp] theorem orElse_raised : (raised f).orElse x = .raised f := rfl
@[simp] theorem orElse_exhausted : exhausted.orElse x = .exhausted := rfl
@[simp] theorem negate_matched : (answered (.matched v)).negate = .answered .notMatched := rfl
@[simp] theorem negate_notMatched :
    (answered .notMatched).negate = .answered (.matched .nothing) := rfl
@[simp] theorem negate_failed : (answered (.failed e)).negate = .answered (.failed e) := rfl
@[simp] theorem negate_raised : (raised f).negate = .raised f := rfl
@[simp] theorem negate_exhausted : exhausted.negate = .exhausted := rfl

theorem onMatch_eq_matched_iff {x : Ending} {next : Value → Ending} {w : Value} :
    x.onMatch next = .answered (.matched w) ↔
      ∃ v, x = .answered (.matched v) ∧ next v = .answered (.matched w) := by
  rcases x with _ | f | (v | _ | e) <;> simp

/-- What follows matters only where the run declined. -/
theorem orElse_congr {e x y : Ending} (h : e = .answered .notMatched → x = y) :
    e.orElse x = e.orElse y := by
  rcases e with _ | f | (v | _ | e)
  · rfl
  · rfl
  · rfl
  · exact h rfl
  · rfl

end Ending

namespace Run

variable (r : Run Cursor)

theorem ending_andThen (next : Outcome → Cursor → Run Cursor) :
    (r.andThen next).ending = r.ending.onAnswer fun o => (next o r.state).ending := by
  rcases h : r.ending with _ | f | o
  · rw [andThen_of_exhausted h, h, Ending.onAnswer_exhausted]
  · rw [andThen_of_raised h, h, Ending.onAnswer_raised]
  · rw [andThen_of_answered h, ending_after, Ending.onAnswer_answered]

theorem ending_onMatch (next : Value → Cursor → Run Cursor) :
    (r.onMatch next).ending = r.ending.onMatch fun v => (next v r.state).ending := by
  rw [onMatch, ending_andThen]
  rcases r.ending with _ | f | (v | _ | e) <;> rfl

theorem ending_orElse (next : Cursor → Run Cursor) :
    (r.orElse next).ending = r.ending.orElse (next r.state).ending := by
  rw [orElse, ending_andThen]
  rcases r.ending with _ | f | (v | _ | e) <;> rfl

theorem ending_ofExcept (x : Except Fault Outcome) (c : Cursor) :
    (ofExcept x c).ending = .ofExcept x := by
  cases x <;> rfl

theorem ending_reply_eq (f : Outcome → Cursor → Except Fault Outcome) :
    (r.reply f).ending = r.ending.onAnswer fun o => .ofExcept (f o r.state) := by
  rw [reply, ending_andThen]
  simp only [ending_ofExcept]

theorem ending_output (f : Value → Cursor → Except Fault Value) :
    (r.output f).ending =
      r.ending.onMatch fun v => .ofExcept ((f v r.state).map .matched) := by
  rw [output, ending_onMatch]
  simp only [ending_ofExcept]

theorem state_onMatch {next : Value → Cursor → Run Cursor} (h : ∀ v c, (next v c).state = c) :
    (r.onMatch next).state = r.state := by
  unfold onMatch andThen
  split
  · rename_i o _
    cases o with
    | matched v => exact h v r.state
    | notMatched => rfl
    | failed e => rfl
  · rfl

theorem state_output (f : Value → Cursor → Except Fault Value) : (r.output f).state = r.state :=
  r.state_onMatch fun _ _ => state_ofExcept _ _

end Run

/-! ### Composed parsers -/

/-- Two later states of a stream that stand at the same place are the same. -/
theorem Cursor.Extends.eq_of_position {items : Items} {c d d' : Cursor} (h : c.Extends items d)
    (h' : c.Extends items d') (same : d.position = d'.position) : d = d' := by
  rw [← Cursor.merge_eq_of_extends h h'.placed same.symm,
    Cursor.merge_eq_of_extends h' h'.placed rfl]

section Parsers

variable {g : Grammar} {items : Items} {depth : Nat} {p q : Parser} {c : Cursor}

namespace Parser

/-- On streams that stand at the same place the parser ends alike. -/
theorem ending_congr (p : Parser) (g : Grammar) (depth : Nat) {c d : Cursor} (hc : c.Placed items)
    (hd : d.Placed items) (same : c.position = d.position) :
    (p.runWithin g items depth c).ending = (p.runWithin g items depth d).ending :=
  (p.contextFree (g.contextFree_call items depth) (g.steady_call items depth) c d hc hd same).ending

/-- The span of a fork is that of what the parser read on the stream itself. -/
theorem span_fork_runWithin (p : Parser) (g : Grammar) (depth : Nat) (hc : c.Placed items) :
    (p.runWithin g items depth c.fork).state.span =
      (Span.point c.position).upTo (p.runWithin g items depth c).state.position := by
  rw [p.span_runWithin g depth hc.fork c.position_fork hc.span_fork_eq,
    (p.parallel_fork g depth hc).position]

theorem ending_map (function : Value → Except Fault Value) (hc : c.Placed items) :
    ((map p function).runWithin g items depth c).ending =
      (p.runWithin g items depth c).ending.onMatch fun v =>
        .ofExcept ((function v).map .matched) := by
  rw [← (p.parallel_fork g depth hc).ending]
  exact (ending_attempt _ c).trans (Run.ending_output _ _)

theorem ending_optional (hc : c.Placed items) :
    ((optional p).runWithin g items depth c).ending =
      (p.runWithin g items depth c).ending.orElse (.answered (.matched .nothing)) := by
  rw [← (p.parallel_fork g depth hc).ending, ← ending_attempt]
  exact Run.ending_orElse _ _

theorem ending_lookingAt (hc : c.Placed items) :
    ((lookingAt p q).runWithin g items depth c).ending =
      (p.runWithin g items depth c).ending.onMatch fun v =>
        (q.runWithin g items depth (p.runWithin g items depth c).state).ending.onMatch fun _ =>
          .answered (.matched v) := by
  have parallel := p.parallel_fork g depth hc
  have inner := (p.extends_runWithin g depth hc.fork).placed
  have same := q.ending_congr g depth inner.fork (p.extends_runWithin g depth hc).placed
    parallel.position
  rw [← parallel.ending, ← same]
  refine (ending_attempt _ c).trans ((Run.ending_onMatch _ _).trans ?_)
  congr 1
  funext v
  exact Run.ending_output _ _

theorem ending_absent (hc : c.Placed items) :
    ((absent p).runWithin g items depth c).ending =
      (p.runWithin g items depth c).ending.negate := by
  rw [← (p.parallel_fork g depth hc).ending]
  show ((probe (p.runWithin g items depth) c).reply _).ending = _
  rw [Run.ending_reply_eq, ending_probe]
  rcases (p.runWithin g items depth c.fork).ending with _ | f | (v | _ | e) <;> rfl

theorem ending_reject (error : Span → Value → Except Fault Value) (hc : c.Placed items) :
    ((reject p error).runWithin g items depth c).ending =
      (p.runWithin g items depth c).ending.onMatch fun v =>
        .ofExcept ((error ((Span.point c.position).upTo
          (p.runWithin g items depth c).state.position) v).map .failed) := by
  rw [← p.span_fork_runWithin g depth hc, ← (p.parallel_fork g depth hc).ending]
  show ((p.runWithin g items depth c.fork).reply _).ending = _
  rw [Run.ending_reply_eq]
  rcases (p.runWithin g items depth c.fork).ending with _ | f | (v | _ | e) <;> rfl

/-- The error of a required parser is made of what its fork shows after the parser declined. -/
theorem ending_require (error : Span → Except Fault Value) (hc : c.Placed items) :
    ((require p error).runWithin g items depth c).ending =
      (p.runWithin g items depth c).ending.orElse
        (.ofExcept ((error ((Span.point c.position).upTo
          (p.runWithin g items depth c).state.position)).map .failed)) := by
  rw [← p.span_fork_runWithin g depth hc, ← (p.parallel_fork g depth hc).ending]
  refine (ending_attempt _ c).trans ?_
  show ((p.runWithin g items depth c.fork).reply _).ending = _
  rw [Run.ending_reply_eq]
  rcases (p.runWithin g items depth c.fork).ending with _ | f | (v | _ | e) <;> rfl

end Parser

/-! ### What never moves its stream -/

/-- A body that leaves every stream as it was, in whatever way it ends. -/
def Stays (items : Items) (body : Cursor → Run Cursor) : Prop :=
  ∀ c : Cursor, c.Placed items → (body c).state = c

theorem stays_probe (body : Cursor → Run Cursor) : Stays items (probe body) := fun _ _ => rfl

theorem stays_reply {body : Cursor → Run Cursor} (h : Stays items body)
    (f : Outcome → Cursor → Except Fault Outcome) : Stays items fun c => (body c).reply f :=
  fun c hc => (Run.state_reply _ _).trans (h c hc)

/-- Merging a fork that did not move changes nothing. -/
theorem stays_attempt {body : Cursor → Run Cursor} (h : Stays items body) :
    Stays items (attempt body) := by
  intro c hc
  by_cases matched : ∃ v, (body c.fork).ending = .answered (.matched v)
  · obtain ⟨v, hv⟩ := matched
    rw [state_attempt_of_matched hv, h c.fork hc.fork]
    exact Cursor.merge_eq_of_extends hc.extends_self hc.fork rfl
  · exact state_attempt_of_not_matched fun v hv => matched ⟨v, hv⟩

namespace Parser

theorem stays_absent (p : Parser) : Stays items ((absent p).runWithin g items depth) :=
  stays_reply (stays_probe _) _

theorem stays_atEnd : Stays items (atEnd.runWithin g items depth) :=
  stays_reply (stays_probe _) _

theorem stays_reject (p : Parser) (error : Span → Value → Except Fault Value) :
    Stays items ((reject p error).runWithin g items depth) :=
  stays_probe _

theorem stays_optional (h : Stays items (p.runWithin g items depth)) :
    Stays items ((optional p).runWithin g items depth) := by
  intro c hc
  have tried : (attempt (p.runWithin g items depth) c).state = c := stays_attempt h c hc
  show ((attempt (p.runWithin g items depth) c).orElse _).state = c
  unfold Run.orElse Run.andThen
  split
  · rename_i o _
    cases o <;> exact tried
  · exact tried

theorem stays_map (h : Stays items (p.runWithin g items depth))
    (function : Value → Except Fault Value) :
    Stays items ((map p function).runWithin g items depth) :=
  stays_attempt fun c hc => (Run.state_output _ _).trans (h c hc)

theorem stays_forbid (p : Parser) (error : Span → Value → Except Fault Value) :
    Stays items ((forbid p error).runWithin g items depth) :=
  stays_map (stays_optional (stays_reject p error)) _

end Parser

/-- An attempt at what ends where a parser ends leaves the stream where the parser does. -/
theorem Parser.state_attempt_of_state_eq {body : Cursor → Run Cursor} (hc : c.Placed items)
    {v : Value} (matched : (body c.fork).ending = .answered (.matched v))
    (same : (body c.fork).state = (p.runWithin g items depth c.fork).state) :
    (attempt body c).state = (p.runWithin g items depth c).state := by
  rw [state_attempt_of_matched matched, same]
  exact Cursor.merge_eq_of_extends (p.extends_runWithin g depth hc)
    (p.extends_runWithin g depth hc.fork).placed (p.parallel_fork g depth hc).position

/-- A lookahead after a parser matches only where the parser does, and leaves the stream where the
parser leaves it, however far the fork went that was looked at. -/
theorem Parser.matched_of_peek {peek : Value → Cursor → Run Cursor} (hc : c.Placed items)
    {w : Value} (h : (attempt (fun tx => (p.runWithin g items depth tx).onMatch fun v tx =>
      (probe (peek v) tx).output fun _ _ => .ok v) c).ending = .answered (.matched w)) :
    (p.runWithin g items depth c).ending = .answered (.matched w) ∧
      (attempt (fun tx => (p.runWithin g items depth tx).onMatch fun v tx =>
        (probe (peek v) tx).output fun _ _ => .ok v) c).state =
          (p.runWithin g items depth c).state := by
  have whole := (ending_attempt _ c).symm.trans h
  have matched := whole
  rw [Run.ending_onMatch, Ending.onMatch_eq_matched_iff] at matched
  obtain ⟨v, first, looked⟩ := matched
  rw [Run.ending_output, Ending.onMatch_eq_matched_iff] at looked
  obtain ⟨-, -, same⟩ := looked
  obtain rfl : v = w := by simpa [Ending.ofExcept, Except.map] using same
  exact ⟨(p.parallel_fork g depth hc).ending.symm.trans first,
    p.state_attempt_of_state_eq hc whole
      (Run.state_onMatch _ fun _ _ => Run.state_output _ _)⟩

/-! ### What negative lookaheads come to -/

/-- `e'` is what a negative lookahead comes to where its parser comes to `e`. -/
structure Ending.Negated (e e' : Ending) : Prop where
  matched_iff : ∀ v, e' = .answered (.matched v) ↔ v = .nothing ∧ e = .answered .notMatched
  notMatched_iff : e' = .answered .notMatched ↔ ∃ v, e = .answered (.matched v)
  failed_iff : ∀ x, e' = .answered (.failed x) ↔ e = .answered (.failed x)
  raised_iff : ∀ f, e' = .raised f ↔ e = .raised f
  exhausted_iff : e' = .exhausted ↔ e = .exhausted

/-- `e'` is what forbidding a parser comes to where the parser comes to `e`, with the error that is
made of an output. -/
structure Ending.Denied (error : Value → Except Fault Value) (e e' : Ending) : Prop where
  /-- A failure is the parser's own, or the error of a match. -/
  failed_iff : ∀ x, e' = .answered (.failed x) ↔
    e = .answered (.failed x) ∨ ∃ v, e = .answered (.matched v) ∧ error v = .ok x
  matched_iff : ∀ v, e' = .answered (.matched v) ↔ v = .nothing ∧ e = .answered .notMatched
  ne_notMatched : e' ≠ .answered .notMatched
  /-- A fault is the parser's own, or that of making the error. -/
  raised_iff : ∀ f, e' = .raised f ↔
    e = .raised f ∨ ∃ v, e = .answered (.matched v) ∧ error v = .error f
  exhausted_iff : e' = .exhausted ↔ e = .exhausted

namespace Parser

theorem negated_absent (hc : c.Placed items) :
    Ending.Negated (p.runWithin g items depth c).ending
      ((absent p).runWithin g items depth c).ending := by
  rw [ending_absent hc]
  rcases (p.runWithin g items depth c).ending with _ | f | (v | _ | x) <;>
    constructor <;> simp [eq_comm]

theorem denied_forbid (error : Span → Value → Except Fault Value) (hc : c.Placed items) :
    Ending.Denied
      (error ((Span.point c.position).upTo (p.runWithin g items depth c).state.position))
      (p.runWithin g items depth c).ending ((forbid p error).runWithin g items depth c).ending := by
  rw [forbid, void, ending_map _ hc, ending_optional hc, ending_reject error hc]
  generalize error ((Span.point c.position).upTo _) = make
  rcases (p.runWithin g items depth c).ending with _ | f | (v | _ | x)
  · constructor <;> simp
  · constructor <;> simp
  · rw [Ending.onMatch_matched]
    cases hv : make v <;> constructor <;> simp [hv, Ending.ofExcept, Except.map]
  · constructor <;> simp [Ending.ofExcept, Except.map, eq_comm]
  · constructor <;> simp

end Parser

end Parsers

/-- No lookahead consumes.  The stream is as it was after a negative lookahead, after a rejected or
a forbidden parser and after a look for the end of the input, in whatever way they end; and where a
lookahead after a parser matches, the output and the stream are those of the parser alone.
Forbidding a parser fails with the error that is made of the span of a match and of its output, and
nowhere else of its own accord; a negative lookahead exchanges matches and non-matches and nothing
else.  All this holds whatever the parsers do to the streams that their rules are given. -/
theorem lookahead_never_consumes (g : Grammar) {items : Items} (depth : Nat) (p q : Parser)
    (choose : Value → Except Fault Parser) (error : Span → Value → Except Fault Value) {c : Cursor}
    (hc : c.Placed items) :
    let run (p : Parser) := p.runWithin g items depth c
    ((run (.absent q)).state = c ∧ (run (.reject q error)).state = c ∧
      (run (.forbid q error)).state = c ∧ (run .atEnd).state = c) ∧
    (∀ v, (run (.lookingAt p q)).ending = .answered (.matched v) →
      (run p).ending = .answered (.matched v) ∧ (run (.lookingAt p q)).state = (run p).state) ∧
    (∀ v, (run (.lookingAtBy p choose)).ending = .answered (.matched v) →
      (run p).ending = .answered (.matched v) ∧
        (run (.lookingAtBy p choose)).state = (run p).state) ∧
    (∃ s : Span, s.start = c.position ∧ s.stop = (run q).state.position ∧
      Ending.Denied (error s) (run q).ending (run (.forbid q error)).ending) ∧
    Ending.Negated (run q).ending (run (.absent q)).ending := by
  intro run
  have le : c.position ≤ (run q).state.position := (q.extends_runWithin g depth hc).le
  exact ⟨⟨q.stays_absent c hc, q.stays_reject error c hc, q.stays_forbid error c hc,
      Parser.stays_atEnd c hc⟩,
    fun _ h => Parser.matched_of_peek hc h, fun _ h => Parser.matched_of_peek hc h,
    ⟨_, rfl, Span.stop_upTo le, Parser.denied_forbid error hc⟩, Parser.negated_absent hc⟩

/-- A rule that reads two items, commits, and matches. -/
def Rule.takeTwo : Rule :=
  .perform .next 0 (.perform .next 0 (.perform .commit 0 (.finish (.matched .nothing))))

/-- From the second item on, two items are forbidden, and looked at after one. -/
theorem lookahead_never_consumes_of_two :
    let items : Items := .ofText (.ofChars ['x', 'a', 'b', 'c'])
    let c := Cursor.start.advance
    let two : Parser := .custom .takeTwo
    let error (s : Span) (v : Value) : Except Fault Value := .ok (.tuple [.span s, v])
    c.Placed items ∧
      ((Parser.forbid two error).runWithin .empty items 0 c).ending =
        .answered (.failed (.tuple [.span ⟨1, 3, by decide⟩, .nothing])) ∧
      ((Parser.forbid two error).runWithin .empty items 0 c).state = c ∧
      ((Parser.lookingAt .item two).runWithin .empty items 0 c).state = c.advance := by
  intro items c two error
  have placed : c.Placed items := ⟨rfl, by decide⟩
  obtain ⟨⟨-, -, stays, -⟩, looking, -, ⟨s, start, stop, denied⟩, -⟩ :=
    lookahead_never_consumes .empty 0 .item two (fun _ => .ok .empty) error placed
  have read : (two.runWithin .empty items 0 c).state.position = 3 := by decide +kernel
  have found : (two.runWithin .empty items 0 c).ending = .answered (.matched .nothing) := rfl
  have looked : ((Parser.lookingAt .item two).runWithin .empty items 0 c).ending =
      .answered (.matched (.char (CodePoint.ofChar 'a'))) :=
    (Parser.ending_lookingAt placed).trans rfl
  beta_reduce at stop
  rw [read] at stop
  obtain rfl : s = ⟨1, 3, by decide⟩ := Span.ext start stop
  exact ⟨placed, (denied.failed_iff _).2 (.inr ⟨.nothing, found, rfl⟩), stays, (looking _ looked).2⟩

end Backtrack
