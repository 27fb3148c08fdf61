import Backtrack.Parser.Build
import Backtrack.Proofs.Repetition
import Backtrack.Proofs.Rollback

/-!
# Upshots

What a parser comes to at a place of its input depends on the place alone: how it ends, faults
included, and where a match ends.  There is one rule for each combinator, which makes the upshot of
the whole of those of its parts.  A composed parser does to every stream that stands at the place
what its upshot there says, whatever its parts do to the forks on which they run, so an equation
between parsers is an equation between upshots.

* `Upshot`, with `Upshot.settle`, its cases `Upshot.andThen` and `Upshot.orElse`, `Upshot.first` and
  `Upshot.negate`.
* `Run.upshot`, `Parser.upshot`: the upshots of runs and of parsers.
* `Run.Settles`: a run that does to its stream what an upshot says.
* `Parser.settles_upshot`: the upshot says all, but for the log.
* `Run.SameEffect`: runs that end alike and leave their stream alike.
-/

namespace Backtrack

/-- What a parser comes to at a place of its input. -/
inductive Upshot where
  /-- A match that ends at `stop`. -/
  | matched (output : Value) (stop : Nat)
  | declined
  | failed (error : Value)
  | raised (fault : Fault)
  /-- The granted depth was used up. -/
  | exhausted

namespace Upshot

/-- How a run ends that comes to this. -/
def ending : Upshot → Ending
  | matched v _ => .answered (.matched v)
  | declined => .answered .notMatched
  | failed e => .answered (.failed e)
  | raised f => .raised f
  | exhausted => .exhausted

/-- The state in which a stream that stood at `c` is left. -/
def leaves (c : Cursor) : Upshot → Cursor
  | matched _ j => ⟨j, c.span.upTo j⟩
  | _ => c

/-- Goes on from a match with `next` and from a non-match with `other`; anything else is final. -/
def settle : Upshot → (Value → Nat → Upshot) → Upshot → Upshot
  | matched v j, next, _ => next v j
  | declined, _, other => other
  | x, _, _ => x

/-- Goes on from a match; anything else is final. -/
def andThen (x : Upshot) (next : Value → Nat → Upshot) : Upshot := x.settle next declined

/-- Goes on from a non-match; anything else is final. -/
def orElse (x other : Upshot) : Upshot := x.settle matched other

/-- The first of the upshots that is no non-match. -/
def first : List Upshot → Upshot
  | [] => declined
  | x :: xs => x.orElse (first xs)

/-- Replaces the output of a match. -/
def output (f : Value → Value) (x : Upshot) : Upshot := x.andThen fun v j => matched (f v) j

/-- Exchanges matches and non-matches at `i`, as a lookahead does. -/
def negate (i : Nat) (x : Upshot) : Upshot := x.settle (fun _ _ => declined) (matched .nothing i)

/-- What a function of the caller makes of an output, at place `j`. -/
def ofExcept (j : Nat) : Except Fault Value → Upshot
  | .ok v => matched v j
  | .error f => raised f

/-- What becomes of an error that a function of the caller makes. -/
def ofError : Except Fault Value → Upshot
  | .ok e => failed e
  | .error f => raised f

variable (v e : Value) (i j : Nat) (f : Fault) (next : Value → Nat → Upshot) (h : Value → Value)
  (x y : Upshot) (xs ys : List Upshot)

@[simp] theorem settle_declined : declined.settle next y = y := rfl
@[simp] theorem settle_failed : (failed e).settle next y = failed e := rfl
@[simp] theorem settle_raised : (raised f).settle next y = raised f := rfl
@[simp] theorem settle_exhausted : exhausted.settle next y = exhausted := rfl
@[simp] theorem andThen_matched : (matched v j).andThen next = next v j := rfl
@[simp] theorem andThen_declined : declined.andThen next = declined := rfl
@[simp] theorem andThen_failed : (failed e).andThen next = failed e := rfl
@[simp] theorem andThen_raised : (raised f).andThen next = raised f := rfl
@[simp] theorem andThen_exhausted : exhausted.andThen next = exhausted := rfl
@[simp] theorem orElse_matched : (matched v j).orElse y = matched v j := rfl
@[simp] theorem orElse_declined : declined.orElse y = y := rfl
@[simp] theorem orElse_failed : (failed e).orElse y = failed e := rfl
@[simp] theorem orElse_raised : (raised f).orElse y = raised f := rfl
@[simp] theorem orElse_exhausted : exhausted.orElse y = exhausted := rfl
@[simp] theorem first_nil : first [] = declined := rfl
@[simp] theorem first_cons : first (x :: xs) = x.orElse (first xs) := rfl
@[simp] theorem output_matched : (matched v j).output h = matched (h v) j := rfl
@[simp] theorem output_declined : declined.output h = declined := rfl
@[simp] theorem output_failed : (failed e).output h = failed e := rfl
@[simp] theorem output_raised : (raised f).output h = raised f := rfl
@[simp] theorem output_exhausted : exhausted.output h = exhausted := rfl
@[simp] theorem negate_matched : (matched v j).negate i = declined := rfl
@[simp] theorem negate_declined : declined.negate i = matched .nothing i := rfl
@[simp] theorem negate_failed : (failed e).negate i = failed e := rfl
@[simp] theorem negate_raised : (raised f).negate i = raised f := rfl
@[simp] theorem negate_exhausted : exhausted.negate i = exhausted := rfl
@[simp] theorem ofExcept_ok : ofExcept j (.ok v) = matched v j := rfl
@[simp] theorem ofExcept_error : ofExcept j (.error f) = raised f := rfl

theorem andThen_andThen (next' : Value → Nat → Upshot) :
    (x.andThen next).andThen next' = x.andThen fun v j => (next v j).andThen next' := by
  cases x <;> rfl

@[simp] theorem orElse_declined_right : x.orElse declined = x := by cases x <;> rfl

@[simp] theorem output_output (h' : Value → Value) :
    (x.output h).output h' = x.output fun v => h' (h v) := by
  cases x <;> rfl

theorem output_orElse : (x.orElse y).output h = (x.output h).orElse (y.output h) := by
  cases x <;> rfl

theorem output_first : (first xs).output h = first (xs.map (output h)) := by
  induction xs with
  | nil => rfl
  | cons x xs ih => rw [first_cons, output_orElse, ih, List.map_cons, first_cons]

theorem first_append : first (xs ++ ys) = (first xs).orElse (first ys) := by
  induction xs with
  | nil => rfl
  | cons x xs ih =>
    rw [List.cons_append, first_cons, first_cons, ih]
    cases x <;> rfl

theorem first_map_declined {α : Type} (as : List α) :
    first (as.map fun _ => declined) = declined := by
  induction as with
  | nil => rfl
  | cons _ _ ih => rw [List.map_cons, first_cons, ih, orElse_declined]

/-- Of alternatives with a condition each, the first whose condition holds. -/
theorem first_map {α : Type} {P : α → Prop} [DecidablePred P] {f : α → Upshot}
    (hf : ∀ a, P a → f a ≠ declined) (as : List α) :
    first (as.map fun a => if P a then f a else declined) =
      match as.find? fun a => P a with
      | some a => f a
      | none => declined := by
  induction as with
  | nil => rfl
  | cons a as ih =>
    rw [List.map_cons, first_cons, ih, List.find?_cons]
    by_cases ha : P a
    · simp only [ha, if_true, decide_true]
      cases hfa : f a
      case declined => exact absurd hfa (hf a ha)
      all_goals rfl
    · simp only [ha, if_false, decide_false, orElse_declined]

/-- An outcome of parsing: no fault, and depth enough. -/
def Answers (x : Upshot) : Prop := ∃ o, x.ending = .answered o

theorem answers_matched : (matched v j).Answers := ⟨_, rfl⟩
theorem answers_declined : declined.Answers := ⟨_, rfl⟩
theorem answers_failed : (failed e).Answers := ⟨_, rfl⟩

/-- The first alternative that is no non-match is one of them. -/
theorem answers_first {xs : List Upshot} (h : ∀ x ∈ xs, x.Answers) : (first xs).Answers := by
  induction xs with
  | nil => exact answers_declined
  | cons x xs ih =>
    obtain ⟨head, tail⟩ := List.forall_mem_cons.1 h
    rw [first_cons]
    cases x
    case declined => exact ih tail
    all_goals exact head

theorem output_of_unmatched {x : Upshot} (hx : ∀ v j, x ≠ matched v j) : x.output h = x := by
  cases x
  case matched v j => exact absurd rfl (hx v j)
  all_goals rfl

theorem eq_matched_of_orElse_failed {x : Upshot} {e v : Value} {j : Nat}
    (h : x.orElse (.failed e) = .matched v j) : x = .matched v j := by
  cases x <;> first | exact h | cases h

end Upshot

/-! ### Upshots of runs -/

/-- What an ending amounts to of a run that leaves its stream at `stop`. -/
def Ending.upshot (stop : Nat) : Ending → Upshot
  | .answered (.matched v) => .matched v stop
  | .answered .notMatched => .declined
  | .answered (.failed e) => .failed e
  | .raised f => .raised f
  | .exhausted => .exhausted

/-- What a run comes to. -/
def Run.upshot (r : Run Cursor) : Upshot := r.ending.upshot r.state.position

/-- The run from `c` ends with the upshot.  After a match the stream stands where the match ends,
and its span reaches up to there; otherwise it is as it was. -/
structure Run.Settles (r : Run Cursor) (c : Cursor) (x : Upshot) : Prop where
  ending : r.ending = x.ending
  state : r.state = x.leaves c

/-- Runs that end alike and leave their stream in the same state; what they log may differ. -/
structure Run.SameEffect (r r' : Run Cursor) : Prop where
  ending : r.ending = r'.ending
  state : r.state = r'.state

namespace Run

variable {r r' : Run Cursor} {body : Cursor → Run Cursor} {c : Cursor}

theorem upshot_congr (ending : r.ending = r'.ending)
    (position : r.state.position = r'.state.position) : r.upshot = r'.upshot := by
  rw [upshot, upshot, ending, position]

theorem upshot_of_ending {e : Ending} (h : r.ending = e) :
    r.upshot = e.upshot r.state.position := by
  rw [upshot, h]

theorem ending_upshot (r : Run Cursor) : r.upshot.ending = r.ending := by
  rcases h : r.ending with _ | f | (v | _ | e) <;> rw [upshot_of_ending h] <;> rfl

theorem upshot_eq_matched_iff {v : Value} {j : Nat} :
    r.upshot = .matched v j ↔ r.ending = .answered (.matched v) ∧ r.state.position = j := by
  rw [upshot]
  rcases r.ending with _ | f | (w | _ | e) <;> simp [Ending.upshot]

/-- Runs from one stream that come to the same are the same to it. -/
theorem Settles.same {x : Upshot} (h : r.Settles c x) (h' : r'.Settles c x) : r.SameEffect r' :=
  ⟨h.ending.trans h'.ending.symm, h.state.trans h'.state.symm⟩

theorem Settles.upshot_eq {x : Upshot} (h : r.Settles c x) : r.upshot = x := by
  rw [upshot_of_ending h.ending, h.state]
  cases x <;> rfl

/-- An upshot does not tell whether the run was on a fork. -/
theorem upshot_attempt (body : Cursor → Run Cursor) (c : Cursor) :
    (attempt body c).upshot = (body c.fork).upshot := by
  have same := ending_attempt body c
  rcases h : (body c.fork).ending with _ | f | (v | _ | e)
  case answered.matched =>
    refine upshot_congr same ?_
    rw [state_attempt_of_matched h, Cursor.position_merge]
  all_goals rw [upshot_of_ending (same.trans h), upshot_of_ending h]; rfl

/-- A fork that is never merged leaves the stream where it stood. -/
theorem upshot_probe (body : Cursor → Run Cursor) (c : Cursor) :
    (probe body c).upshot = (body c.fork).upshot.andThen fun v _ => .matched v c.position := by
  rcases h : (body c.fork).ending with _ | f | (v | _ | e) <;>
    rw [upshot_of_ending h, upshot_of_ending ((ending_probe body c).trans h)] <;> rfl

/-- What follows a run is settled by how it ended, if a failure is passed on. -/
theorem upshot_andThen {next : Outcome → Cursor → Run Cursor} {y : Value → Nat → Upshot}
    {z : Upshot}
    (matched : ∀ v, (next (.matched v) r.state).upshot = y v r.state.position)
    (declined : r.ending = .answered .notMatched → (next .notMatched r.state).upshot = z)
    (failed : ∀ e, (next (.failed e) r.state).upshot = .failed e) :
    (r.andThen next).upshot = r.upshot.settle y z := by
  rcases hr : r.ending with _ | f | (v | _ | e)
  · rw [andThen_of_exhausted hr, upshot_of_ending hr]; rfl
  · rw [andThen_of_raised hr, upshot_of_ending hr]; rfl
  · rw [andThen_of_answered hr, upshot_of_ending hr]; exact matched v
  · rw [andThen_of_answered hr, upshot_of_ending hr]; exact declined hr
  · rw [andThen_of_answered hr, upshot_of_ending hr]; exact failed e

theorem upshot_onMatch {next : Value → Cursor → Run Cursor} {y : Value → Nat → Upshot}
    (h : ∀ v, (next v r.state).upshot = y v r.state.position) :
    (r.onMatch next).upshot = r.upshot.andThen y :=
  upshot_andThen h (fun _ => rfl) fun _ => rfl

theorem upshot_ofExcept (x : Except Fault Value) (c : Cursor) :
    (ofExcept (x.map .matched) c).upshot = .ofExcept c.position x := by
  cases x <;> rfl

theorem upshot_ofError (x : Except Fault Value) (c : Cursor) :
    (ofExcept (x.map .failed) c).upshot = .ofError x := by
  cases x <;> rfl

theorem upshot_output {f : Value → Cursor → Except Fault Value}
    {y : Value → Nat → Except Fault Value} (h : ∀ v, f v r.state = y v r.state.position) :
    (r.output f).upshot = r.upshot.andThen fun v j => .ofExcept j (y v j) :=
  upshot_onMatch fun v => by rw [upshot_ofExcept, h v]

theorem upshot_orElse {next : Cursor → Run Cursor} {y : Upshot}
    (h : r.ending = .answered .notMatched → (next r.state).upshot = y) :
    (r.orElse next).upshot = r.upshot.orElse y :=
  upshot_andThen (fun _ => rfl) h fun _ => rfl

end Run

/-! ### Upshots of parsers -/

/-- What a parser comes to at place `i`. -/
def Parser.upshot (g : Grammar) (items : Items) (depth : Nat) (p : Parser) (i : Nat) : Upshot :=
  (p.runWithin g items depth (.point i)).upshot

section Parsers

variable {g : Grammar} {items : Items} {depth i : Nat} {p q : Parser} {c : Cursor}

namespace Parser

/-- On every stream a parser comes to its upshot at the place where the stream stands. -/
theorem upshot_runWithin (p : Parser) (g : Grammar) (depth : Nat) (hc : c.Placed items) :
    (p.runWithin g items depth c).upshot = p.upshot g items depth c.position := by
  have parallel := p.contextFree (g.contextFree_call items depth) (g.steady_call items depth) c
    (.point c.position) hc (Cursor.placed_point hc.le_size) rfl
  exact Run.upshot_congr parallel.ending parallel.position

/-- No match ends before its place, or past the end of the input. -/
theorem le_of_upshot (hi : i ≤ items.size) {v : Value} {j : Nat}
    (h : p.upshot g items depth i = .matched v j) : i ≤ j ∧ j ≤ items.size := by
  have later := p.extends_runWithin g depth (Cursor.placed_point hi)
  obtain rfl := (Run.upshot_eq_matched_iff.1 h).2
  exact ⟨later.le, later.placed.le_size⟩

/-- After a match it is enough to know what comes next at the place where it ends. -/
theorem upshot_andThen_congr (p : Parser) (hi : i ≤ items.size) {y z : Value → Nat → Upshot}
    (h : ∀ v j, p.upshot g items depth i = .matched v j → j ≤ items.size → y v j = z v j) :
    (p.upshot g items depth i).andThen y = (p.upshot g items depth i).andThen z := by
  cases hp : p.upshot g items depth i
  case matched v j => exact h v j hp (le_of_upshot hi hp).2
  all_goals rfl

/-- A parser that is run where another one matched comes to its upshot there. -/
theorem upshot_next (p q : Parser) (g : Grammar) (depth : Nat) (hi : i ≤ items.size) :
    (q.runWithin g items depth (p.runWithin g items depth (.point i)).state).upshot =
      q.upshot g items depth (p.runWithin g items depth (.point i)).state.position :=
  q.upshot_runWithin g depth (p.placed_runWithin g depth (Cursor.placed_point hi))

/-- An attempt at a parser comes to its upshot. -/
theorem upshot_attempt (p : Parser) (g : Grammar) (depth : Nat) (hc : c.Placed items) :
    (attempt (p.runWithin g items depth) c).upshot = p.upshot g items depth c.position := by
  rw [Run.upshot_attempt, p.upshot_runWithin g depth hc.fork, Cursor.position_fork]

/-- A look at a parser comes to its upshot, and stays where it was. -/
theorem upshot_probe (p : Parser) (g : Grammar) (depth : Nat) (hc : c.Placed items) :
    (probe (p.runWithin g items depth) c).upshot =
      (p.upshot g items depth c.position).andThen fun v _ => .matched v c.position := by
  rw [Run.upshot_probe, p.upshot_runWithin g depth hc.fork, Cursor.position_fork]

/-- A lookahead keeps the output and the place of what it follows. -/
theorem upshot_peek (p q : Parser) {v : Value} (hi : i ≤ items.size) :
    ((probe (q.runWithin g items depth) (p.runWithin g items depth (.point i)).state).output
        fun _ _ => .ok v).upshot =
      (q.upshot g items depth (p.runWithin g items depth (.point i)).state.position).andThen
        fun _ _ => .matched v (p.runWithin g items depth (.point i)).state.position := by
  have placed := p.placed_runWithin g depth (Cursor.placed_point hi)
  refine (Run.upshot_output (y := fun _ _ => .ok v) fun _ => rfl).trans ?_
  rw [q.upshot_probe g depth placed]
  rcases q.upshot g items depth _ <;> rfl

theorem upshot_map (f : Value → Except Fault Value) :
    (map p f).upshot g items depth i =
      (p.upshot g items depth i).andThen fun v j => .ofExcept j (f v) :=
  (Run.upshot_attempt _ _).trans (Run.upshot_output fun _ => rfl)

/-- The span covers what was read from where the parser was tried. -/
theorem upshot_withSpan (hi : i ≤ items.size) :
    (withSpan p).upshot g items depth i =
      (p.upshot g items depth i).andThen fun v j =>
        .matched (.tuple [.span ((Span.point i).upTo j), v]) j :=
  (Run.upshot_attempt _ _).trans (Run.upshot_onMatch fun v => by
    have span := p.span_runWithin g depth (Cursor.placed_point hi) (i := i) rfl rfl
    exact congrArg (fun s => Upshot.matched (.tuple [.span s, v]) _) span)

theorem upshot_seq (hi : i ≤ items.size) :
    (seq p q).upshot g items depth i =
      (p.upshot g items depth i).andThen fun v j =>
        (q.upshot g items depth j).output fun w => .tuple [v, w] := by
  refine (Run.upshot_attempt _ _).trans (Run.upshot_onMatch fun v => ?_)
  refine (Run.upshot_output (y := fun w _ => .ok (.tuple [v, w])) fun _ => rfl).trans ?_
  exact congrArg (Upshot.output _) (p.upshot_next q g depth hi)

/-- A sequence whose second part is chosen by the output of the first. -/
theorem upshot_seqBy {choose : Value → Except Fault Parser} (hi : i ≤ items.size) :
    (seqBy p choose).upshot g items depth i =
      (p.upshot g items depth i).andThen fun v j =>
        match choose v with
        | .ok q => (q.upshot g items depth j).output fun w => .tuple [v, w]
        | .error f => .raised f := by
  refine (Run.upshot_attempt _ _).trans (Run.upshot_onMatch fun v => ?_)
  refine (Run.upshot_output (y := fun w _ => .ok (.tuple [v, w])) fun _ => rfl).trans ?_
  cases choose v with
  | ok q => exact congrArg (Upshot.output _) (p.upshot_next q g depth hi)
  | error f => rfl

/-- The alternatives are tried one after the other in one place. -/
theorem upshot_runFirst (ps : List Parser) (g : Grammar) (depth : Nat) (hc : c.Placed items) :
    (runFirst items (g.call items depth) ps c).upshot =
      .first (ps.map fun p => p.upshot g items depth c.position) := by
  induction ps with
  | nil => rfl
  | cons p ps ih =>
    rw [List.map_cons, Upshot.first_cons, ← p.upshot_attempt g depth hc]
    refine Run.upshot_orElse fun declined => ?_
    rw [state_attempt_of_declined declined]
    exact ih

theorem upshot_choice (p : Parser) (ps : List Parser) (hi : i ≤ items.size) :
    (choice p ps).upshot g items depth i =
      .first ((p :: ps).map fun q => q.upshot g items depth i) :=
  (Run.upshot_attempt _ _).trans
    (upshot_runFirst (p :: ps) g depth (Cursor.placed_point hi).fork)

theorem upshot_optional (hi : i ≤ items.size) :
    (optional p).upshot g items depth i =
      (p.upshot g items depth i).orElse (.matched .nothing i) := by
  have tried : (attempt (p.runWithin g items depth) (.point i)).upshot = p.upshot g items depth i :=
    p.upshot_attempt g depth (Cursor.placed_point hi)
  rw [← tried]
  refine Run.upshot_orElse fun declined => ?_
  rw [state_attempt_of_declined declined]
  rfl

theorem upshot_absent (hi : i ≤ items.size) :
    (absent p).upshot g items depth i = (p.upshot g items depth i).negate i := by
  have looked := p.upshot_probe g depth (Cursor.placed_point hi)
  refine (Run.upshot_andThen (y := fun _ _ => .declined) (z := .matched .nothing i)
    (fun _ => rfl) (fun _ => rfl) fun _ => rfl).trans ?_
  refine (congrArg (Upshot.settle · (fun _ _ => .declined) (.matched .nothing i)) looked).trans ?_
  rw [Cursor.position_point]
  rcases p.upshot g items depth i <;> rfl

theorem upshot_lookingAt (hi : i ≤ items.size) :
    (lookingAt p q).upshot g items depth i =
      (p.upshot g items depth i).andThen fun v j =>
        (q.upshot g items depth j).andThen fun _ _ => .matched v j := by
  refine (Run.upshot_attempt _ _).trans (Run.upshot_onMatch fun v => ?_)
  exact p.upshot_peek q hi

/-- A chosen lookahead, where the choice is known. -/
theorem upshot_lookingAtBy {choose : Value → Except Fault Parser} (hi : i ≤ items.size)
    (hq : ∀ v, choose v = .ok q) :
    (lookingAtBy p choose).upshot g items depth i =
      (p.upshot g items depth i).andThen fun v j =>
        (q.upshot g items depth j).andThen fun _ _ => .matched v j := by
  refine (Run.upshot_attempt _ _).trans (Run.upshot_onMatch fun v => ?_)
  rw [hq v]
  exact p.upshot_peek q hi

/-- The error is made of the span of what was read. -/
theorem upshot_reject (error : Span → Value → Except Fault Value) (hi : i ≤ items.size) :
    (reject p error).upshot g items depth i =
      (p.upshot g items depth i).andThen fun v j =>
        .ofError (error ((Span.point i).upTo j) v) := by
  have span := p.span_runWithin g depth (Cursor.placed_point hi) (i := i) rfl rfl
  refine (Run.upshot_probe _ _).trans ?_
  refine (congrArg (Upshot.andThen · _) (Run.upshot_andThen
    (y := fun v j => .ofError (error ((Span.point i).upTo j) v)) (z := .declined)
    (fun v => ?_) (fun _ => rfl) fun _ => rfl)).trans ?_
  · exact (Run.upshot_ofError _ _).trans (congrArg (fun s => Upshot.ofError (error s v)) span)
  · show ((p.upshot g items depth i).andThen _).andThen _ = _
    rw [Upshot.andThen_andThen]
    refine p.upshot_andThen_congr hi fun v j _ _ => ?_
    cases error ((Span.point i).upTo j) v <;> rfl

/-- The error is made of the span where the parser declined. -/
theorem upshot_require_of_stays (error : Span → Except Fault Value) (hi : i ≤ items.size)
    (stays : p.upshot g items depth i = .declined →
      (p.runWithin g items depth (.point i)).state.position = i) :
    (require p error).upshot g items depth i =
      (p.upshot g items depth i).orElse (.ofError (error (.point i))) := by
  refine (Run.upshot_attempt _ _).trans (Run.upshot_andThen (fun _ => rfl) (fun declined => ?_)
    fun _ => rfl)
  have span := p.span_runWithin g depth (Cursor.placed_point hi) (i := i) rfl rfl
  rw [stays (Run.upshot_of_ending declined)] at span
  have empty : (Span.point i).upTo i = .point i := Span.ext rfl (Span.stop_upTo (Nat.le_refl i))
  exact (Run.upshot_ofError _ _).trans
    (congrArg (fun s => Upshot.ofError (error s)) (span.trans empty))

/-- A handle comes to the upshot of its definition, with one call more to go. -/
theorem upshot_handle {n : Nat} (defined : g.definition? n = some p) (hi : i ≤ items.size) :
    (handle n).upshot g items (depth + 1) i = p.upshot g items depth i := by
  refine Eq.trans ?_ (p.upshot_attempt g depth (Cursor.placed_point hi))
  simp only [upshot, runWithin, runWith, Grammar.call, defined]
  rfl

/-- A composed parser does to every stream what its upshot says at the place of the stream. -/
theorem settles_upshot (g : Grammar) (depth : Nat) (hp : ∀ rule, p.untraced ≠ .custom rule)
    (hc : c.Placed items) :
    (p.runWithin g items depth c).Settles c (p.upshot g items depth c.position) := by
  rw [← p.upshot_runWithin g depth hc]
  refine ⟨(Run.ending_upshot _).symm, ?_⟩
  by_cases matched : ∃ v, (p.runWithin g items depth c).ending = .answered (.matched v)
  · obtain ⟨v, hv⟩ := matched
    have later := p.extends_runWithin g depth hc
    rw [Run.upshot_of_ending hv]
    exact (Cursor.merge_eq_of_extends later (Cursor.placed_point later.placed.le_size) rfl).symm
  · have stays := p.restores items (g.restores_call items depth) hp c fun v hv => matched ⟨v, hv⟩
    refine stays.trans ?_
    rcases h : (p.runWithin g items depth c).ending with _ | f | (v | _ | e)
    case answered.matched => exact absurd ⟨v, h⟩ matched
    all_goals rw [Run.upshot_of_ending h]; rfl

/-- Composed parsers with one upshot at a place are the same to the streams that stand there. -/
theorem sameEffect_of_upshot (hp : ∀ rule, p.untraced ≠ .custom rule)
    (hq : ∀ rule, q.untraced ≠ .custom rule) (hc : c.Placed items)
    (same : p.upshot g items depth c.position = q.upshot g items depth c.position) :
    (p.runWithin g items depth c).SameEffect (q.runWithin g items depth c) :=
  (settles_upshot g depth hp hc).same (same ▸ settles_upshot g depth hq hc)

end Parser

end Parsers

end Backtrack
