import Backtrack.Cursor

/-!
# Runs

A run is what became of a computation on a state: how it ended, the state it left, and what it
logged.  It ends by an outcome, by a fault, or by running out of the depth that it was granted for
calls of recursive parsers.  `Run.andThen` goes on only from an outcome; the other two ends are
final, and the state stays as they left it.

Speculation comes in two forms: `attempt` merges a fork exactly if its body matches, and `probe`
never does.
-/

namespace Backtrack

/-- An entry of the log. -/
inductive Entry where
  /-- A traced parser returned; the span is that of the stream it was given. -/
  | traced (title : String) (span : Span) (outcome : Outcome)
  /-- An error was turned into a non-match at a position. -/
  | discarded (error : Value) (position : Nat)
  /-- A handle got its definition. -/
  | defined (handle : Nat) (kind : String)

/-- The text of a log entry, given how handles are named. -/
def Entry.message (handleName : Nat → String) : Entry → String
  | traced title span outcome => s!"{title}: {span.brief} {outcome.toValue.written}"
  | discarded error position => s!"Discarded error at position {position}: {error.written}"
  | defined handle kind => s!"Defined recursive parser {handleName handle} as {kind}"

/-- How a computation ended. -/
inductive Ending where
  /-- The granted depth was used up. -/
  | exhausted
  | raised (fault : Fault)
  | answered (outcome : Outcome)

/-- How a computation ended, the state it left, and its log in order. -/
structure Run (σ : Type) where
  ending : Ending
  state : σ
  log : List Entry

namespace Run

variable {σ τ : Type}

/-- The run that ends at once with an outcome. -/
def answer (o : Outcome) (s : σ) : Run σ := ⟨.answered o, s, []⟩

/-- The run that ends at once with a fault. -/
def raise (f : Fault) (s : σ) : Run σ := ⟨.raised f, s, []⟩

/-- The run that ends at once for want of depth. -/
def exhaust (s : σ) : Run σ := ⟨.exhausted, s, []⟩

/-- The run that ends with what a caller's function returned. -/
def ofExcept (r : Except Fault Outcome) (s : σ) : Run σ :=
  match r with
  | .ok o => answer o s
  | .error f => raise f s

/-- The run with entries logged before its own. -/
def after (entries : List Entry) (r : Run σ) : Run σ := { r with log := entries ++ r.log }

/-- Goes on from an outcome with another run; any other end is final. -/
def andThen (r : Run σ) (next : Outcome → σ → Run σ) : Run σ :=
  match r.ending with
  | .answered o => (next o r.state).after r.log
  | _ => r

/-- Goes on from a match; any other end is final. -/
def onMatch (r : Run σ) (next : Value → σ → Run σ) : Run σ :=
  r.andThen fun
    | .matched v, s => next v s
    | o, s => answer o s

/-- Goes on with `next` where the run declined. -/
def orElse (r : Run σ) (next : σ → Run σ) : Run σ :=
  r.andThen fun
    | .notMatched, s => next s
    | o, s => answer o s

/-- Replaces the outcome by a function of it and of the state. -/
def reply (r : Run σ) (f : Outcome → σ → Except Fault Outcome) : Run σ :=
  r.andThen fun o s => ofExcept (f o s) s

/-- Replaces the output of a match. -/
def output (r : Run σ) (f : Value → σ → Except Fault Value) : Run σ :=
  r.onMatch fun v s => ofExcept ((f v s).map .matched) s

/-- Replaces the state. -/
def withState (r : Run σ) (s : τ) : Run τ := ⟨r.ending, s, r.log⟩

@[simp] theorem ending_after (es : List Entry) (r : Run σ) : (r.after es).ending = r.ending := rfl
@[simp] theorem state_after (es : List Entry) (r : Run σ) : (r.after es).state = r.state := rfl
@[simp] theorem log_after (es : List Entry) (r : Run σ) : (r.after es).log = es ++ r.log := rfl
@[simp] theorem ending_withState (r : Run σ) (s : τ) : (r.withState s).ending = r.ending := rfl
@[simp] theorem state_withState (r : Run σ) (s : τ) : (r.withState s).state = s := rfl
@[simp] theorem log_withState (r : Run σ) (s : τ) : (r.withState s).log = r.log := rfl

@[simp] theorem state_ofExcept (r : Except Fault Outcome) (s : σ) : (ofExcept r s).state = s := by
  cases r <;> rfl

theorem andThen_of_answered {r : Run σ} {o : Outcome} (h : r.ending = .answered o)
    (next : Outcome → σ → Run σ) : r.andThen next = (next o r.state).after r.log := by
  simp [andThen, h]

theorem andThen_of_raised {r : Run σ} {f : Fault} (h : r.ending = .raised f)
    (next : Outcome → σ → Run σ) : r.andThen next = r := by
  simp [andThen, h]

theorem andThen_of_exhausted {r : Run σ} (h : r.ending = .exhausted)
    (next : Outcome → σ → Run σ) : r.andThen next = r := by
  simp [andThen, h]

@[simp] theorem state_reply (r : Run σ) (f : Outcome → σ → Except Fault Outcome) :
    (r.reply f).state = r.state := by
  cases h : r.ending with
  | exhausted => rw [reply, andThen_of_exhausted h]
  | raised _ => rw [reply, andThen_of_raised h]
  | answered o => rw [reply, andThen_of_answered h, state_after, state_ofExcept]

end Run

/-- Runs `body` on a fork, which is merged exactly if the body matches. -/
def attempt (body : Cursor → Run Cursor) (c : Cursor) : Run Cursor :=
  let r := body c.fork
  match r.ending with
  | .answered (.matched _) => r.withState (c.merge r.state)
  | _ => r.withState c

/-- Runs `body` on a fork that is never merged. -/
def probe (body : Cursor → Run Cursor) (c : Cursor) : Run Cursor :=
  (body c.fork).withState c

@[simp] theorem ending_attempt (body : Cursor → Run Cursor) (c : Cursor) :
    (attempt body c).ending = (body c.fork).ending := by
  unfold attempt
  dsimp only
  split <;> rfl

@[simp] theorem log_attempt (body : Cursor → Run Cursor) (c : Cursor) :
    (attempt body c).log = (body c.fork).log := by
  unfold attempt
  dsimp only
  split <;> rfl

/-- A match moves the stream to where the fork stands. -/
theorem state_attempt_of_matched {body : Cursor → Run Cursor} {c : Cursor} {v : Value}
    (h : (body c.fork).ending = .answered (.matched v)) :
    (attempt body c).state = c.merge (body c.fork).state := by
  simp [attempt, h]

/-- Without a match nothing is merged. -/
theorem attempt_of_not_matched {body : Cursor → Run Cursor} {c : Cursor}
    (h : ∀ v, (body c.fork).ending ≠ .answered (.matched v)) : attempt body c = probe body c := by
  unfold attempt
  dsimp only
  split
  · exact absurd ‹_› (h _)
  · rfl

/-- Without a match the stream stays as it was. -/
theorem state_attempt_of_not_matched {body : Cursor → Run Cursor} {c : Cursor}
    (h : ∀ v, (body c.fork).ending ≠ .answered (.matched v)) :
    (attempt body c).state = c := by
  rw [attempt_of_not_matched h]
  rfl

theorem state_attempt_of_declined {body : Cursor → Run Cursor} {c : Cursor}
    (h : (attempt body c).ending = .answered .notMatched) : (attempt body c).state = c := by
  rw [ending_attempt] at h
  exact state_attempt_of_not_matched fun v hv => by simp [h] at hv

/-- Looking never moves the stream. -/
@[simp] theorem state_probe (body : Cursor → Run Cursor) (c : Cursor) :
    (probe body c).state = c := rfl

@[simp] theorem ending_probe (body : Cursor → Run Cursor) (c : Cursor) :
    (probe body c).ending = (body c.fork).ending := rfl

@[simp] theorem log_probe (body : Cursor → Run Cursor) (c : Cursor) :
    (probe body c).log = (body c.fork).log := rfl

end Backtrack
