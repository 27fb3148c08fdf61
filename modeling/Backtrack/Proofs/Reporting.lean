import Backtrack.Proofs.Lookahead
import Backtrack.Proofs.Rollback

/-!
# Reporting

What a caller's errors are made of, where a parser is required and where it is rejected.

A required parser runs on the fork whose span its error is made of.  A caller's function that
declines and has its own fork merged into that one has moved it, so the error spans what was read,
and not the place where the parser was tried.  The alternatives of a choice run on forks of their
own, and a required choice reports the place whatever they do.

A rejected parser never matches, so neither does a lookahead for it.  Made optional, it accepts what
a required negative lookahead accepts, and its error can use the output.

* `required_error_spans_left_progress`, `required_error_not_always_at_point`.
* `rejecting_lookahead_never_matches`, `rejecting_lookahead_accepts_less`.
-/

namespace Backtrack

/-! ### Errors that a caller makes -/

namespace Ending

/-- A caller's error is no match. -/
theorem ofExcept_failed_ne_matched (r : Except Fault Value) (v : Value) :
    ofExcept (r.map .failed) ≠ .answered (.matched v) := by
  cases r <;> simp [ofExcept, Except.map]

theorem ofExcept_failed_onMatch (r : Except Fault Value) (next : Value → Ending) :
    (ofExcept (r.map .failed)).onMatch next = ofExcept (r.map .failed) := by
  cases r <;> rfl

theorem ofExcept_failed_orElse (r : Except Fault Value) (x : Ending) :
    (ofExcept (r.map .failed)).orElse x = ofExcept (r.map .failed) := by
  cases r <;> rfl

end Ending

section Parsers

variable {g : Grammar} {items : Items} {depth : Nat} {p : Parser} {c : Cursor}

namespace Parser

/-! ### Required parsers -/

theorem state_require_of_matched (error : Span → Except Fault Value) (hc : c.Placed items)
    {v : Value} (h : (p.runWithin g items depth c).ending = .answered (.matched v)) :
    ((require p error).runWithin g items depth c).state = (p.runWithin g items depth c).state := by
  refine p.state_attempt_of_state_eq hc (v := v) ?_ (Run.state_reply _ _)
  exact (ending_attempt _ c).symm.trans
    ((ending_require error hc).trans (by rw [h, Ending.orElse_matched]))

/-- The error of a required parser is never a match. -/
theorem require_unmatched (error : Span → Except Fault Value) (hc : c.Placed items)
    (h : ∀ v, (p.runWithin g items depth c).ending ≠ .answered (.matched v)) (v : Value) :
    ((require p error).runWithin g items depth c).ending ≠ .answered (.matched v) := by
  rw [ending_require error hc]
  rcases he : (p.runWithin g items depth c).ending with _ | f | (w | _ | e)
  · simp
  · simp
  · exact absurd he (h w)
  · exact Ending.ofExcept_failed_ne_matched _ v
  · simp

theorem state_require_of_unmatched (error : Span → Except Fault Value) (hc : c.Placed items)
    (h : ∀ v, (p.runWithin g items depth c).ending ≠ .answered (.matched v)) :
    ((require p error).runWithin g items depth c).state = c :=
  state_attempt_of_not_matched fun v hv =>
    require_unmatched error hc h v ((ending_attempt _ c).trans hv)

/-- A parser that does not match leaves its stream as it was, unless it is, traces aside, a caller's
function that leaves the stream it was given committed or closes it while it is. -/
theorem exists_merging_of_moved {o : Outcome}
    (h : (p.runWithin g items depth c).ending = .answered o) (ho : o.isMatched = false)
    (moved : (p.runWithin g items depth c).state ≠ c) :
    ∃ rule, p.untraced = .custom rule ∧ (rule.leavesCommitted items (g.call items depth) c = true ∨
      rule.closesCommitted items (g.call items depth) c = true) := by
  by_contra none
  push Not at none
  unfold runWithin at h moved
  by_cases custom : ∃ rule, p.untraced = .custom rule
  · obtain ⟨rule, hp⟩ := custom
    obtain ⟨ending, state⟩ := p.runWith_untraced items (g.call items depth) c
    rw [hp] at ending state
    obtain ⟨left, closed⟩ := none rule hp
    exact moved (state.trans (state_custom_of_not_committed (ending ▸ h) ho
      (Bool.eq_false_iff.2 left) (Bool.eq_false_iff.2 closed)))
  · refine moved (p.restores items (g.restores_call items depth)
      (fun rule hp => custom ⟨rule, hp⟩) c fun v hv => ?_)
    obtain rfl : o = .matched v := by simpa [h] using hv
    cases ho

/-- The only alternative of a choice ends as it does by itself, and is contained. -/
theorem choice_one (p : Parser) (g : Grammar) (depth : Nat) (hc : c.Placed items) :
    ((choice p []).runWithin g items depth c).ending = (p.runWithin g items depth c).ending ∧
      ((∀ v, (p.runWithin g items depth c).ending ≠ .answered (.matched v)) →
        ((choice p []).runWithin g items depth c).state = c) := by
  have ending : ((choice p []).runWithin g items depth c).ending =
      (p.runWithin g items depth c).ending := by
    -- the alternative runs on a fork of the choice's own fork
    rw [← p.ending_congr g depth hc.fork.fork hc rfl]
    refine (ending_attempt _ c).trans ((Run.ending_orElse _ _).trans ?_)
    rw [ending_attempt]
    show ((p.runWithin g items depth c.fork.fork).ending).orElse (.answered .notMatched) = _
    rcases (p.runWithin g items depth c.fork.fork).ending with _ | f | (v | _ | e) <;> rfl
  refine ⟨ending, fun h => state_attempt_of_not_matched fun v hv => h v ?_⟩
  exact ending.symm.trans ((ending_attempt _ c).trans hv)

end Parser

end Parsers

/-- The error of a required parser that declines is made of the span of what the parser left read.
That is the point where it was tried if it left its stream as it was; if it did not, it is, traces
aside, a caller's function that returned with the stream it was given committed, or closed that
stream while it was.  A parser that does not decline ends as it does by itself, and the stream is
moved by a match only.  Required as the only alternative of a choice, any parser that declines has
its error made of the point. -/
theorem required_error_spans_left_progress (g : Grammar) {items : Items} (depth : Nat) (p : Parser)
    (error : Span → Except Fault Value) {c : Cursor} (hc : c.Placed items) :
    let run (p : Parser) := p.runWithin g items depth c
    ∃ s : Span, s.start = c.position ∧ s.stop = (run p).state.position ∧
      (run (.require p error)).ending =
        (run p).ending.orElse (.ofExcept ((error s).map .failed)) ∧
      (∀ v, (run p).ending = .answered (.matched v) →
        (run (.require p error)).state = (run p).state) ∧
      ((∀ v, (run p).ending ≠ .answered (.matched v)) → (run (.require p error)).state = c) ∧
      (s = .point c.position ↔ (run p).state = c) ∧
      (∀ o, (run p).ending = .answered o → o.isMatched = false → s ≠ .point c.position →
        ∃ rule, p.untraced = .custom rule ∧
          (rule.leavesCommitted items (g.call items depth) c = true ∨
            rule.closesCommitted items (g.call items depth) c = true)) ∧
      (run (.require (.choice p []) error)).ending =
        (run p).ending.orElse (.ofExcept ((error (.point c.position)).map .failed)) := by
  intro run
  have later := p.extends_runWithin g depth hc
  have le : c.position ≤ (run p).state.position := later.le
  have at_self : (Span.point c.position).upTo c.position = .point c.position :=
    Span.ext rfl (Span.stop_upTo (Nat.le_refl _))
  have at_point : (Span.point c.position).upTo (run p).state.position = .point c.position ↔
      (run p).state = c := by
    refine ⟨fun same => ?_, fun stays => ?_⟩
    · refine later.eq_of_position hc.extends_self ?_
      exact (Span.stop_upTo le).symm.trans (congrArg Span.stop same)
    · rw [stays, at_self]
  refine ⟨_, rfl, Span.stop_upTo le, Parser.ending_require error hc,
    fun _ h => Parser.state_require_of_matched error hc h,
    Parser.state_require_of_unmatched error hc, at_point, fun o h ho moved => ?_, ?_⟩
  · exact Parser.exists_merging_of_moved h ho fun stays => moved (at_point.2 stays)
  · -- the error is made of where the choice left the stream, but only where the choice declined
    obtain ⟨ending, contained⟩ := p.choice_one g depth hc
    refine (Parser.ending_require error hc).trans ?_
    rw [ending]
    refine Ending.orElse_congr fun declined => ?_
    rw [contained fun v hv => by simp [declined] at hv, at_self]

/-- A function that read an item, committed and declined is reported with the item, and as the
alternative of a choice with the point before it. -/
theorem required_error_spans_left_progress_of_commit :
    let items : Items := .ofText (.ofChars ['a', 'b'])
    let p : Parser := .custom .commitAndDecline
    let error (s : Span) : Except Fault Value := .ok (.span s)
    Cursor.start.Placed items ∧
      ((Parser.require p error).runWithin .empty items 0 .start).ending =
        .answered (.failed (.span ⟨0, 1, by decide⟩)) ∧
      ((Parser.require p error).runWithin .empty items 0 .start).state = .start ∧
      ((Parser.require (.choice p []) error).runWithin .empty items 0 .start).ending =
        .answered (.failed (.span (.point 0))) := by
  intro items p error
  have placed : Cursor.start.Placed items := Cursor.placed_start items
  obtain ⟨s, start, stop, own, -, unmatched, -, -, contained⟩ :=
    required_error_spans_left_progress .empty 0 p error placed
  obtain rfl : s = ⟨0, 1, by decide⟩ := Span.ext start stop
  exact ⟨placed, own, unmatched (fun _ h => by cases h), contained⟩

/-- The error of a required parser that declines is not always made of the point where it was
tried. -/
theorem required_error_not_always_at_point :
    ¬ ∀ (g : Grammar) (items : Items) (depth : Nat) (p : Parser) (error : Span → Except Fault Value)
      (c : Cursor), c.Placed items →
        (p.runWithin g items depth c).ending = .answered .notMatched →
        ((Parser.require p error).runWithin g items depth c).ending =
          .ofExcept ((error (.point c.position)).map .failed) := by
  intro law
  have same := law .empty (.ofText (.ofChars ['a', 'b'])) 0 (.custom .commitAndDecline)
    (fun s => .ok (.int s.stop)) .start (Cursor.placed_start _) rfl
  cases same

/-! ### Rejected parsers -/

section Parsers

variable {g : Grammar} {items : Items} {depth : Nat} {a b : Parser} {c : Cursor}

namespace Parser

theorem reject_unmatched (error : Span → Value → Except Fault Value) (hc : c.Placed items)
    (v : Value) : ((reject b error).runWithin g items depth c).ending ≠ .answered (.matched v) := by
  rw [ending_reject error hc]
  rcases (b.runWithin g items depth c).ending with _ | f | (w | _ | e)
  · simp
  · simp
  · exact Ending.ofExcept_failed_ne_matched _ v
  · simp
  · simp

/-- A lookahead after a parser matches exactly where both match. -/
theorem lookingAt_matched_iff (hc : c.Placed items) {v : Value} :
    ((lookingAt a b).runWithin g items depth c).ending = .answered (.matched v) ↔
      (a.runWithin g items depth c).ending = .answered (.matched v) ∧
        ∃ w, (b.runWithin g items depth (a.runWithin g items depth c).state).ending =
          .answered (.matched w) := by
  rw [ending_lookingAt hc, Ending.onMatch_eq_matched_iff]
  simp only [Ending.onMatch_eq_matched_iff]
  constructor
  · rintro ⟨u, first, w, second, same⟩
    obtain rfl : u = v := by simpa using same
    exact ⟨first, w, second⟩
  · rintro ⟨first, w, second⟩
    exact ⟨v, first, w, second, rfl⟩

/-- After a match, a lookahead comes to what is looked at, but for the output. -/
theorem ending_lookingAt_of_matched (hc : c.Placed items) {v : Value}
    (first : (a.runWithin g items depth c).ending = .answered (.matched v)) :
    ((lookingAt a b).runWithin g items depth c).ending =
      (b.runWithin g items depth (a.runWithin g items depth c).state).ending.onMatch fun _ =>
        .answered (.matched v) := by
  rw [ending_lookingAt hc, first, Ending.onMatch_matched]

theorem state_lookingAt_of_unmatched
    (h : ∀ v, ((lookingAt a b).runWithin g items depth c).ending ≠ .answered (.matched v)) :
    ((lookingAt a b).runWithin g items depth c).state = c :=
  state_attempt_of_not_matched fun v hv => h v ((ending_attempt _ c).trans hv)

/-- Rejecting a parser and making that optional matches exactly where the parser declines. -/
theorem optional_reject_matched_iff (error : Span → Value → Except Fault Value)
    (hc : c.Placed items) :
    (∃ w, ((optional (reject b error)).runWithin g items depth c).ending =
      .answered (.matched w)) ↔ (b.runWithin g items depth c).ending = .answered .notMatched := by
  rw [ending_optional hc, ending_reject error hc]
  generalize error _ = made
  rcases (b.runWithin g items depth c).ending with _ | f | (v | _ | e)
  · simp
  · simp
  · simp [Ending.ofExcept_failed_orElse, Ending.ofExcept_failed_ne_matched]
  · simp
  · simp

/-- So does requiring the parser to be absent. -/
theorem require_absent_matched_iff (error : Span → Except Fault Value) (hc : c.Placed items) :
    (∃ w, ((require (absent b) error).runWithin g items depth c).ending =
      .answered (.matched w)) ↔ (b.runWithin g items depth c).ending = .answered .notMatched := by
  rw [ending_require error hc, ending_absent hc]
  generalize error _ = made
  rcases (b.runWithin g items depth c).ending with _ | f | (v | _ | e)
  · simp
  · simp
  · simp [Ending.ofExcept_failed_ne_matched]
  · simp
  · simp

end Parser

end Parsers

/-- A lookahead for a rejected parser reports the span and the output of a match, and never
matches: where the rejected parser declines, so does the whole, and the stream is as it was.  Made
optional, the rejected parser is reported alike, and the lookahead for it matches where the first
parser matches and the other one declines after it.  These are the streams that a lookahead for the
required absence of the other parser accepts. -/
theorem rejecting_lookahead_never_matches (g : Grammar) {items : Items} (depth : Nat)
    (a b : Parser) (error : Span → Value → Except Fault Value) (absence : Span → Except Fault Value)
    {c : Cursor} (hc : c.Placed items) :
    let run (p : Parser) := p.runWithin g items depth c
    let second := b.runWithin g items depth (run a).state
    let rejecting := run (.lookingAt a (.reject b error))
    let permitting := run (.lookingAt a (.optional (.reject b error)))
    let requiring := run (.lookingAt a (.require (.absent b) absence))
    ((∀ v, rejecting.ending ≠ .answered (.matched v)) ∧ rejecting.state = c) ∧
    (∀ v, (run a).ending = .answered (.matched v) → second.ending = .answered .notMatched →
      rejecting.ending = .answered .notMatched) ∧
    (∃ s : Span, s.start = (run a).state.position ∧ s.stop = second.state.position ∧
      ∀ v w, (run a).ending = .answered (.matched v) → second.ending = .answered (.matched w) →
        rejecting.ending = .ofExcept ((error s w).map .failed) ∧
          permitting.ending = .ofExcept ((error s w).map .failed) ∧ permitting.state = c) ∧
    (∀ v, permitting.ending = .answered (.matched v) ↔
      (run a).ending = .answered (.matched v) ∧ second.ending = .answered .notMatched) ∧
    (∀ v, requiring.ending = .answered (.matched v) ↔
      (run a).ending = .answered (.matched v) ∧ second.ending = .answered .notMatched) ∧
    ∀ v, permitting.ending = .answered (.matched v) →
      permitting.state = (run a).state ∧ requiring.state = (run a).state := by
  intro run second rejecting permitting requiring
  have placed : (run a).state.Placed items := (a.extends_runWithin g depth hc).placed
  have le : (run a).state.position ≤ second.state.position :=
    (b.extends_runWithin g depth placed).le
  have never : ∀ v, rejecting.ending ≠ .answered (.matched v) := fun v h => by
    obtain ⟨-, w, hw⟩ := (Parser.lookingAt_matched_iff hc).1 h
    exact Parser.reject_unmatched error placed w hw
  have permits : ∀ v, permitting.ending = .answered (.matched v) ↔
      (run a).ending = .answered (.matched v) ∧ second.ending = .answered .notMatched := fun v =>
    (Parser.lookingAt_matched_iff hc).trans
      (and_congr_right fun _ => Parser.optional_reject_matched_iff error placed)
  have requires : ∀ v, requiring.ending = .answered (.matched v) ↔
      (run a).ending = .answered (.matched v) ∧ second.ending = .answered .notMatched := fun v =>
    (Parser.lookingAt_matched_iff hc).trans
      (and_congr_right fun _ => Parser.require_absent_matched_iff absence placed)
  refine ⟨⟨never, Parser.state_lookingAt_of_unmatched never⟩, fun v first declined => ?_,
    ⟨(Span.point (run a).state.position).upTo second.state.position, rfl, Span.stop_upTo le,
      fun v w first found => ?_⟩, permits, requires, fun v h => ?_⟩
  · refine (Parser.ending_lookingAt_of_matched hc first).trans ?_
    rw [Parser.ending_reject error placed, declined]
    rfl
  · have reported : permitting.ending = .ofExcept ((error ((Span.point (run a).state.position).upTo
        second.state.position) w).map .failed) := by
      refine (Parser.ending_lookingAt_of_matched hc first).trans ?_
      rw [Parser.ending_optional placed, Parser.ending_reject error placed, found,
        Ending.onMatch_matched, Ending.ofExcept_failed_orElse, Ending.ofExcept_failed_onMatch]
    refine ⟨?_, reported, Parser.state_lookingAt_of_unmatched fun u hu =>
      Ending.ofExcept_failed_ne_matched _ u (reported.symm.trans hu)⟩
    refine (Parser.ending_lookingAt_of_matched hc first).trans ?_
    rw [Parser.ending_reject error placed, found, Ending.onMatch_matched,
      Ending.ofExcept_failed_onMatch]
  · exact ⟨(Parser.matched_of_peek hc h).2,
      (Parser.matched_of_peek hc ((requires v).2 ((permits v).1 h))).2⟩

/-- Where `b` is rejected after `a`, a `c` after it makes the lookahead decline that the optional
one and the required one accept. -/
theorem rejecting_lookahead_never_matches_before_c :
    let items : Items := .ofText (.ofChars ['a', 'c'])
    let a := Parser.word (.ofChars ['a'])
    let b := Parser.word (.ofChars ['b'])
    let rejected := Parser.reject b fun s v => .ok (.tuple [.span s, v])
    let absence := Parser.require (.absent b) fun s => .ok (.span s)
    let run (p : Parser) := p.runWithin .empty items 0 .start
    Cursor.start.Placed items ∧
      (run (.lookingAt a rejected)).ending = .answered .notMatched ∧
      (run (.lookingAt a (.optional rejected))).ending =
        .answered (.matched (.text (.ofChars ['a']))) ∧
      (run (.lookingAt a absence)).ending = .answered (.matched (.text (.ofChars ['a']))) := by
  intro items a b rejected absence run
  obtain ⟨-, declines, -, permits, requires, -⟩ :=
    rejecting_lookahead_never_matches .empty 0 a b (fun s v => .ok (.tuple [.span s, v]))
      (fun s => .ok (.span s)) (Cursor.placed_start items)
  exact ⟨Cursor.placed_start items, declines _ rfl rfl, (permits _).2 ⟨rfl, rfl⟩,
    (requires _).2 ⟨rfl, rfl⟩⟩

/-- A lookahead for a rejected parser does not accept all that a lookahead for its required absence
accepts. -/
theorem rejecting_lookahead_accepts_less :
    ¬ ∀ (g : Grammar) (items : Items) (depth : Nat) (a b : Parser)
      (error : Span → Value → Except Fault Value) (absence : Span → Except Fault Value)
      (c : Cursor) (v : Value), c.Placed items →
        (((Parser.lookingAt a (.reject b error)).runWithin g items depth c).ending =
            .answered (.matched v) ↔
          ((Parser.lookingAt a (.require (.absent b) absence)).runWithin g items depth c).ending =
            .answered (.matched v)) := by
  intro law
  have accepted := (law .empty (.ofText (.ofChars ['a', 'c'])) 0 (Parser.word (.ofChars ['a']))
    (Parser.word (.ofChars ['b'])) (fun _ v => .ok v) (fun s => .ok (.span s)) .start
    (.text (.ofChars ['a'])) (Cursor.placed_start _)).2 rfl
  cases accepted

end Backtrack
