import Backtrack.Grammar

/-!
# Nested calls

The evaluator again, with a record of what it does: which parsers it enters and how it leaves them,
and which functions of the caller it applies.  A caller's function on streams is a parser like any
other, and what goes on inside it is not recorded.

* `Event`, `openCalls`: the records, and the calls that are open after some of them.
* `Observed`: a run with its events.  Observed runs are combined as runs are.
* `Parser.observe`, `Parser.observeWithin`: parsers, observed.
* `Parser.run_observeWithin`: but for the events, that is `Parser.runWithin`.
-/

namespace Backtrack

/-- What an observed run does. -/
inductive Event where
  /-- The call of a parser begins. -/
  | entered (parser : Parser)
  /-- It ends. -/
  | left (parser : Parser) (ending : Ending)
  /-- A function of the caller is applied; it may raise a fault. -/
  | applied (fault : Option Fault)

/-- The calls that are open after the events, the innermost first, if those were open before. -/
def openCalls : List Parser → List Event → List Parser
  | calls, [] => calls
  | calls, .entered p :: events => openCalls (p :: calls) events
  | calls, .left _ _ :: events => openCalls calls.tail events
  | calls, .applied _ :: events => openCalls calls events

@[simp] theorem openCalls_nil (calls : List Parser) : openCalls calls [] = calls := rfl

@[simp] theorem openCalls_entered (calls : List Parser) (p : Parser) (events : List Event) :
    openCalls calls (.entered p :: events) = openCalls (p :: calls) events := rfl

@[simp] theorem openCalls_left (calls : List Parser) (p : Parser) (e : Ending)
    (events : List Event) :
    openCalls calls (.left p e :: events) = openCalls calls.tail events := rfl

@[simp] theorem openCalls_applied (calls : List Parser) (f : Option Fault) (events : List Event) :
    openCalls calls (.applied f :: events) = openCalls calls events := rfl

theorem openCalls_append (calls : List Parser) (before after : List Event) :
    openCalls calls (before ++ after) = openCalls (openCalls calls before) after := by
  induction before generalizing calls with
  | nil => rfl
  | cons event before ih => cases event <;> exact ih _

/-- A run and what was done in it. -/
structure Observed where
  run : Run Cursor
  events : List Event

/-- The fault that a function of the caller raised. -/
def raised? {α : Type} : Except Fault α → Option Fault
  | .error f => some f
  | .ok _ => none

/-- Runs that go on alike are the same. -/
theorem Run.andThen_congr {σ : Type} (r : Run σ) {next next' : Outcome → σ → Run σ}
    (h : ∀ o s, next o s = next' o s) : r.andThen next = r.andThen next' :=
  congrArg r.andThen (funext fun o => funext (h o))

namespace Observed

/-- A run in which nothing is recorded. -/
def silent (r : Run Cursor) : Observed := ⟨r, []⟩

/-- The call of a parser. -/
def within (p : Parser) (o : Observed) : Observed :=
  ⟨o.run, .entered p :: (o.events ++ [.left p o.run.ending])⟩

/-- What follows after a function of the caller. -/
def applying (fault : Option Fault) (o : Observed) : Observed := ⟨o.run, .applied fault :: o.events⟩

def attempt (body : Cursor → Observed) (c : Cursor) : Observed :=
  ⟨Backtrack.attempt (fun tx => (body tx).run) c, (body c.fork).events⟩

def probe (body : Cursor → Observed) (c : Cursor) : Observed :=
  ⟨Backtrack.probe (fun tx => (body tx).run) c, (body c.fork).events⟩

def andThen (o : Observed) (next : Outcome → Cursor → Observed) : Observed where
  run := o.run.andThen fun x c => (next x c).run
  events :=
    match o.run.ending with
    | .answered x => o.events ++ (next x o.run.state).events
    | _ => o.events

def onMatch (o : Observed) (next : Value → Cursor → Observed) : Observed :=
  o.andThen fun
    | .matched v, c => next v c
    | x, c => silent (.answer x c)

def orElse (o : Observed) (next : Cursor → Observed) : Observed :=
  o.andThen fun
    | .notMatched, c => next c
    | x, c => silent (.answer x c)

def output (o : Observed) (f : Value → Cursor → Except Fault Value) : Observed :=
  o.onMatch fun v c => silent (.ofExcept ((f v c).map .matched) c)

/-- The answer that a function of the caller gives. -/
def answering (r : Except Fault Outcome) (c : Cursor) : Observed :=
  applying (raised? r) (silent (.ofExcept r c))

/-- The loop of a repetition. -/
def repeatFrom (b : Bounds) (body : Cursor → Observed) : Nat → List Value → Cursor → Observed
  | 0, outputs, c => silent (Backtrack.repeatFrom b (fun c => (body c).run) 0 outputs [] c)
  | budget + 1, outputs, c =>
    (body c).andThen fun
      | .matched v, d =>
        if b.most.isNone && d.position == c.position then silent (.raise .endlessRepetition d)
        else repeatFrom b body budget (v :: outputs) d
      | .notMatched, d => silent (.answer (b.conclude outputs) d)
      | .failed e, d => silent (.answer (.failed e) d)

/-- The events of what follows an outcome come after those before. -/
theorem events_andThen_of_answered {o : Observed} {x : Outcome} (h : o.run.ending = .answered x)
    (next : Outcome → Cursor → Observed) :
    (o.andThen next).events = o.events ++ (next x o.run.state).events := by
  simp only [andThen, h]

/-- Nothing follows any other end. -/
theorem andThen_of_not_answered {o : Observed} (h : ∀ x, o.run.ending ≠ .answered x)
    (next : Outcome → Cursor → Observed) : o.andThen next = o := by
  obtain ⟨⟨ending, state, log⟩, events⟩ := o
  cases ending with
  | exhausted | raised f => rfl
  | answered x => exact absurd rfl (h x)

section Erasure

variable (o : Observed) (body : Cursor → Observed) (c : Cursor)

@[simp] theorem run_silent (r : Run Cursor) : (silent r).run = r := rfl
@[simp] theorem run_within (p : Parser) : (within p o).run = o.run := rfl
@[simp] theorem run_applying (f : Option Fault) : (applying f o).run = o.run := rfl
@[simp] theorem run_answering (r : Except Fault Outcome) :
    (answering r c).run = .ofExcept r c := rfl

@[simp] theorem run_attempt :
    (attempt body c).run = Backtrack.attempt (fun tx => (body tx).run) c := rfl

@[simp] theorem run_probe :
    (probe body c).run = Backtrack.probe (fun tx => (body tx).run) c := rfl

@[simp] theorem run_andThen (next : Outcome → Cursor → Observed) :
    (o.andThen next).run = o.run.andThen fun x d => (next x d).run := rfl

@[simp] theorem run_onMatch (next : Value → Cursor → Observed) :
    (o.onMatch next).run = o.run.onMatch fun v d => (next v d).run := by
  rw [onMatch, run_andThen, Run.onMatch]
  refine o.run.andThen_congr ?_
  rintro (v | _ | e) d <;> rfl

@[simp] theorem run_orElse (next : Cursor → Observed) :
    (o.orElse next).run = o.run.orElse fun d => (next d).run := by
  rw [orElse, run_andThen, Run.orElse]
  refine o.run.andThen_congr ?_
  rintro (v | _ | e) d <;> rfl

@[simp] theorem run_output (f : Value → Cursor → Except Fault Value) :
    (o.output f).run = o.run.output f := by
  rw [output, run_onMatch]
  rfl

@[simp] theorem run_repeatFrom (b : Bounds) (budget : Nat) (outputs : List Value) :
    (repeatFrom b body budget outputs c).run =
      Backtrack.repeatFrom b (fun d => (body d).run) budget outputs [] c := by
  induction budget generalizing outputs c with
  | zero => rfl
  | succ budget ih =>
    rw [repeatFrom, run_andThen, repeatFrom_succ]
    refine (body c).run.andThen_congr ?_
    rintro (v | _ | e) d
    · dsimp only
      split
      · rfl
      · exact ih _ _
    · rfl
    · rfl

end Erasure

end Observed

section Parsers

variable (items : Items) (call : Nat → Cursor → Observed)

/-- A parser in which nothing is recorded. -/
def Parser.insideLeaf (p : Parser) (c : Cursor) : Observed :=
  .silent (p.runWith items (fun n c => (call n c).run) c)

mutual

/-- What goes on within the call of a parser; `call` stands for what goes on within the call of a
handle. -/
def Parser.inside : Parser → Cursor → Observed
  | .literal pattern output, c => Parser.insideLeaf items call (.literal pattern output) c
  | .oneOf group, c => Parser.insideLeaf items call (.oneOf group) c
  | .item, c => Parser.insideLeaf items call .item c
  | .empty, c => Parser.insideLeaf items call .empty c
  | .atEnd, c => Parser.insideLeaf items call .atEnd c
  | .custom rule, c => Parser.insideLeaf items call (.custom rule) c
  | .seq first second, c =>
    .attempt (fun tx => (Observed.within first (first.inside tx)).onMatch fun v tx =>
      (Observed.within second (second.inside tx)).output fun w _ => .ok (.tuple [v, w])) c
  | .choice first others, c =>
    .attempt (fun tx => (Observed.attempt (fun tx => .within first (first.inside tx)) tx).orElse
      fun tx => Parser.insideFirst others tx) c
  | .optional parser, c =>
    (Observed.attempt (fun tx => .within parser (parser.inside tx)) c).orElse fun c =>
      .silent (.answer (.matched .nothing) c)
  | .absent parser, c =>
    (Observed.probe (fun tx => .within parser (parser.inside tx)) c).andThen fun
      | .matched _, c => .silent (.answer .notMatched c)
      | .notMatched, c => .silent (.answer (.matched .nothing) c)
      | .failed e, c => .silent (.answer (.failed e) c)
  | .times parser bounds, c =>
    .attempt (fun tx => .repeatFrom bounds
      (.attempt fun tx => .within parser (parser.inside tx)) (bounds.budget items tx) [] tx) c
  | .map parser function, c =>
    .attempt (fun tx => (Observed.within parser (parser.inside tx)).onMatch fun v tx =>
      .answering ((function v).map .matched) tx) c
  | .withSpan parser, c =>
    .attempt (fun tx => (Observed.within parser (parser.inside tx)).output fun v tx =>
      .ok (.tuple [.span tx.span, v])) c
  | .lookingAt parser peek, c =>
    .attempt (fun tx => (Observed.within parser (parser.inside tx)).onMatch fun v tx =>
      (Observed.probe (fun tx => .within peek (peek.inside tx)) tx).output fun _ _ => .ok v) c
  | .seqBy parser choose, c =>
    .attempt (fun tx => (Observed.within parser (parser.inside tx)).onMatch fun v tx =>
      .applying (raised? (choose v)) ((Parser.insideChosen (choose v) tx).output fun w _ =>
        .ok (.tuple [v, w]))) c
  | .lookingAtBy parser choose, c =>
    .attempt (fun tx => (Observed.within parser (parser.inside tx)).onMatch fun v tx =>
      .applying (raised? (choose v))
        ((Observed.probe (fun tx => Parser.insideChosen (choose v) tx) tx).output fun _ _ =>
          .ok v)) c
  | .require parser error, c =>
    .attempt (fun tx => (Observed.within parser (parser.inside tx)).andThen fun
      | .notMatched, tx => .answering ((error tx.span).map .failed) tx
      | x, tx => .silent (.answer x tx)) c
  | .reject parser error, c =>
    .probe (fun tx => (Observed.within parser (parser.inside tx)).andThen fun
      | .matched v, tx => .answering ((error tx.span v).map .failed) tx
      | x, tx => .silent (.answer x tx)) c
  | .forgive parser, c =>
    (Observed.attempt (fun tx => .within parser (parser.inside tx)) c).andThen fun
      | .failed e, c => .silent ⟨.answered .notMatched, c, [.discarded e c.position]⟩
      | x, c => .silent (.answer x c)
  | .traced parser title, c =>
    (Observed.within parser (parser.inside c)).andThen fun x c =>
      .silent ⟨.answered x, c, [.traced title c.span x]⟩
  | .handle number, c => call number c

/-- What goes on while the parsers are attempted in order. -/
def Parser.insideFirst : List Parser → Cursor → Observed
  | [], c => .silent (.answer .notMatched c)
  | p :: ps, c =>
    (Observed.attempt (fun tx => .within p (p.inside tx)) c).orElse fun c =>
      Parser.insideFirst ps c

/-- What goes on after a function of the caller returned a parser. -/
def Parser.insideChosen : Except Fault Parser → Cursor → Observed
  | .error f, c => .silent (.raise f c)
  | .ok p, c => .within p (p.inside c)

end

/-- The call of a parser. -/
def Parser.observe (p : Parser) (c : Cursor) : Observed := .within p (p.inside items call c)

end Parsers

/-- What goes on within the call of a handle, with `depth` calls of handles to go within it. -/
def Grammar.observeCall (g : Grammar) (items : Items) : Nat → Nat → Cursor → Observed
  | 0, _, c => .silent (.exhaust c)
  | depth + 1, handle, c =>
    match g.definition? handle with
    | none => .silent (.raise .undefinedHandle c)
    | some p => .attempt (fun tx => p.observe items (g.observeCall items depth) tx) c

/-- The call of a parser, with `depth` calls of handles to go within it. -/
def Parser.observeWithin (g : Grammar) (items : Items) (depth : Nat) (p : Parser) (c : Cursor) :
    Observed :=
  p.observe items (g.observeCall items depth) c

/-! ### But for the events, these are the runs -/

section Erasure

variable {items : Items} {call : Nat → Cursor → Observed}

mutual

theorem Parser.run_inside : ∀ (p : Parser) (c : Cursor),
    (p.inside items call c).run = p.runWith items (fun n c => (call n c).run) c
  | .literal _ _, _ | .oneOf _, _ | .item, _ | .empty, _ | .atEnd, _ | .custom _, _ => rfl
  | .seq first second, c => by
    simp [Parser.inside, Parser.runWith, first.run_inside, second.run_inside]
  | .choice first others, c => by
    simp [Parser.inside, Parser.runWith, first.run_inside, Parser.run_insideFirst others]
  | .optional parser, c => by simp [Parser.inside, Parser.runWith, parser.run_inside]
  | .absent parser, c => by
    simp only [Parser.inside, Parser.runWith, Observed.run_probe, Observed.run_andThen,
      Observed.run_within, parser.run_inside]
    refine Run.andThen_congr _ ?_
    rintro (v | _ | e) d <;> rfl
  | .times parser bounds, c => by simp [Parser.inside, Parser.runWith, parser.run_inside]
  | .map parser function, c => by
    simp only [Parser.inside, Parser.runWith, Run.output, Observed.run_attempt,
      Observed.run_onMatch, Observed.run_answering, Observed.run_within, parser.run_inside]
  | .withSpan parser, c => by simp [Parser.inside, Parser.runWith, parser.run_inside]
  | .lookingAt parser peek, c => by
    simp [Parser.inside, Parser.runWith, parser.run_inside, peek.run_inside]
  | .seqBy parser choose, c => by
    simp [Parser.inside, Parser.runWith, parser.run_inside,
      fun v => Parser.run_insideChosen (choose v)]
  | .lookingAtBy parser choose, c => by
    simp [Parser.inside, Parser.runWith, parser.run_inside,
      fun v => Parser.run_insideChosen (choose v)]
  | .require parser error, c => by
    simp only [Parser.inside, Parser.runWith, Observed.run_attempt, Observed.run_andThen,
      Observed.run_within, parser.run_inside]
    refine congrArg (attempt · c) (funext fun tx => Run.andThen_congr _ ?_)
    rintro (v | _ | e) d <;> rfl
  | .reject parser error, c => by
    simp only [Parser.inside, Parser.runWith, Observed.run_probe, Observed.run_andThen,
      Observed.run_within, parser.run_inside]
    refine congrArg (probe · c) (funext fun tx => Run.andThen_congr _ ?_)
    rintro (v | _ | e) d <;> rfl
  | .forgive parser, c => by
    simp only [Parser.inside, Parser.runWith, Observed.run_attempt, Observed.run_andThen,
      Observed.run_within, parser.run_inside]
    refine Run.andThen_congr _ ?_
    rintro (v | _ | e) d <;> rfl
  | .traced parser title, c => by simp [Parser.inside, Parser.runWith, parser.run_inside]
  | .handle number, c => rfl

theorem Parser.run_insideFirst : ∀ (ps : List Parser) (c : Cursor),
    (Parser.insideFirst items call ps c).run =
      Parser.runFirst items (fun n c => (call n c).run) ps c
  | [], _ => rfl
  | p :: ps, c => by
    simp [Parser.insideFirst, Parser.runFirst, p.run_inside, Parser.run_insideFirst ps]

theorem Parser.run_insideChosen : ∀ (r : Except Fault Parser) (c : Cursor),
    (Parser.insideChosen items call r c).run =
      Parser.runChosen items (fun n c => (call n c).run) r c
  | .error _, _ => rfl
  | .ok p, c => by simp [Parser.insideChosen, Parser.runChosen, p.run_inside]

end

theorem Grammar.run_observeCall (g : Grammar) (depth handle : Nat) (c : Cursor) :
    (g.observeCall items depth handle c).run = g.call items depth handle c := by
  induction depth generalizing handle c with
  | zero => rfl
  | succ depth ih =>
    rw [observeCall, call]
    cases g.definition? handle with
    | none => rfl
    | some p => simp [Parser.observe, Parser.run_inside, ih]

/-- Observing a parser does not change its run. -/
theorem Parser.run_observeWithin (g : Grammar) (depth : Nat) (p : Parser) (c : Cursor) :
    (p.observeWithin g items depth c).run = p.runWithin g items depth c := by
  simp [observeWithin, observe, runWithin, run_inside, g.run_observeCall]

end Erasure

end Backtrack
