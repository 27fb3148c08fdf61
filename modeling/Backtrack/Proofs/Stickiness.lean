import Backtrack.Calls
import Backtrack.Proofs.Endings

/-!
# Failures and faults are sticky

When a call within a run fails, the calls around it end one after the other, and nothing else is
tried: each of them ends in the same error, up to the innermost call that forgives errors, which
declines.  A fault, of a call or of a function of the caller, ends all the calls around it.

* `Ending.stops`, `Parser.meets`: the ends that pass outwards, and what they make of a call around.
* `Passes`: an end passes outwards through the calls that are open.
* `Sticky`: calls end in the order that nesting asks for, and what stops one passes outwards.
  Observed runs are combined so that they stay sticky; one lemma for each way to combine them.
* `failures_and_faults_pass_outwards`: the law.
-/

namespace Backtrack

/-- Whether the end of a call also ends the calls around it. -/
def Ending.stops : Ending → Bool
  | .answered (.failed _) => true
  | .answered _ => false
  | _ => true

/-- What an event stops the calls around it with. -/
def Event.stop? : Event → Option Ending
  | .entered _ => none
  | .left _ e => if e.stops then some e else none
  | .applied f => f.map .raised

/-- Whether a call goes on when one within it ends like that. -/
def Parser.catches : Parser → Ending → Bool
  | .forgive _, .answered (.failed _) => true
  | _, _ => false

/-- What a call ends in when it is reached by what stopped one within it. -/
def Parser.meets (p : Parser) (e : Ending) : Ending :=
  if p.catches e then .answered .notMatched else e

/-- The calls that are open end one after the other, the innermost first, up to one that catches
what they are stopped with.  If none does, that is all, and the whole ends like that as well. -/
def Passes (e : Ending) : List Parser → List Event → Ending → Prop
  | [], after, ending => after = [] ∧ ending = e
  | p :: outer, after, ending =>
    ∃ later, after = .left p (p.meets e) :: later ∧
      (p.catches e = false → Passes e outer later ending)

theorem Event.stops_of_stop? {s : Event} {e : Ending} (h : s.stop? = some e) : e.stops = true := by
  cases s with
  | entered p => cases h
  | left p e' =>
    obtain ⟨hs, rfl⟩ : e'.stops = true ∧ e' = e := by simpa [stop?] using h
    exact hs
  | applied f =>
    obtain ⟨f, rfl, rfl⟩ := Option.map_eq_some_iff.1 h
    rfl

theorem Ending.stops_of_answered {o : Outcome} (h : (Ending.answered o).stops = true) :
    ∃ e, o = .failed e := by
  cases o with
  | matched v | notMatched => cases h
  | failed e => exact ⟨e, rfl⟩

/-! ### Passing outwards -/

section Passing

variable {e ending ending' : Ending} {inner outer : List Parser} {after more : List Event}
  {p : Parser}

/-- What comes after the whole must be nothing, unless the end was caught. -/
theorem Passes.append (h : Passes e inner after ending)
    (hmore : ending = e → more = [] ∧ ending' = e) : Passes e inner (after ++ more) ending' := by
  induction inner generalizing after with
  | nil =>
    obtain ⟨rfl, rfl⟩ := h
    exact hmore rfl
  | cons q inner ih =>
    obtain ⟨later, rfl, hlater⟩ := h
    exact ⟨later ++ more, rfl, fun hq => ih (hlater hq)⟩

/-- One more call around. -/
theorem Passes.within (h : Passes e inner after ending) (hp : ending = e → ending' = p.meets e) :
    Passes e (inner ++ [p]) (after ++ [.left p ending']) ending' := by
  induction inner generalizing after with
  | nil =>
    obtain ⟨rfl, rfl⟩ := h
    obtain rfl := hp rfl
    exact ⟨[], rfl, fun hcatch => ⟨rfl, by simp [Parser.meets, hcatch]⟩⟩
  | cons q inner ih =>
    obtain ⟨later, rfl, hlater⟩ := h
    exact ⟨_, rfl, fun hq => ih (hlater hq)⟩

/-- If no open call catches the end, they all end like that, and nothing else happens. -/
theorem Passes.to_end (h : Passes e outer after ending) (hn : ∀ q ∈ outer, q.catches e = false) :
    ending = e ∧ after = outer.map (Event.left · e) := by
  induction outer generalizing after with
  | nil => exact ⟨h.2, h.1⟩
  | cons q outer ih =>
    obtain ⟨later, rfl, hlater⟩ := h
    have hq := hn q List.mem_cons_self
    obtain ⟨hending, rfl⟩ := ih (hlater hq) fun r hr => hn r (List.mem_cons_of_mem q hr)
    exact ⟨hending, by simp [Parser.meets, hq]⟩

/-- The calls within the innermost one that catches the end all end like that, and that one
declines next. -/
theorem Passes.to_catch {rest : List Parser} (h : Passes e (inner ++ p :: rest) after ending)
    (hn : ∀ q ∈ inner, q.catches e = false) (hp : p.catches e = true) :
    ∃ later, after = inner.map (Event.left · e) ++ .left p (.answered .notMatched) :: later := by
  induction inner generalizing after with
  | nil =>
    obtain ⟨later, rfl, -⟩ := h
    exact ⟨later, by simp [Parser.meets, hp]⟩
  | cons q inner ih =>
    obtain ⟨later, rfl, hlater⟩ := h
    have hq := hn q List.mem_cons_self
    obtain ⟨later', rfl⟩ := ih (hlater hq) fun r hr => hn r (List.mem_cons_of_mem q hr)
    exact ⟨later', by simp [Parser.meets, hq]⟩

end Passing

/-! ### Sticky runs -/

/-- Calls end in the order that nesting asks for, and what stops one of them passes outwards.  The
parsers of `inner` are the calls that the events themselves opened and that are still open. -/
structure Sticky (events : List Event) (ending : Ending) : Prop where
  balanced : ∀ calls, openCalls calls events = calls
  nested : ∀ before q e after, events = before ++ .left q e :: after →
    ∃ inner, ∀ calls, openCalls calls before = q :: (inner ++ calls)
  stops : ∀ before s after e, events = before ++ s :: after → s.stop? = some e →
    ∃ inner, (∀ calls, openCalls calls (before ++ [s]) = inner ++ calls) ∧
      Passes e inner after ending

/-- Where an event of two sequences in a row stands. -/
theorem split_append {α : Type} {xs ys before after : List α} {s : α}
    (h : xs ++ ys = before ++ s :: after) :
    (∃ after', xs = before ++ s :: after' ∧ after = after' ++ ys) ∨
      ∃ before', before = xs ++ before' ∧ ys = before' ++ s :: after := by
  rcases List.append_eq_append_iff.1 h with ⟨before', hb, hy⟩ | ⟨tail, hx, hs⟩
  · exact .inr ⟨before', hb, hy⟩
  · cases tail with
    | nil => exact .inr ⟨[], by simpa using hx.symm, hs.symm⟩
    | cons s' after' =>
      obtain ⟨rfl, rfl⟩ := List.cons.inj hs
      exact .inl ⟨after', hx, rfl⟩

/-- Where an event of a call stands: it is the first, it is one of those between, or it is the
last. -/
theorem split_call {α : Type} {first last s : α} {xs before after : List α}
    (h : first :: (xs ++ [last]) = before ++ s :: after) :
    (before = [] ∧ s = first ∧ after = xs ++ [last]) ∨
      (∃ before' after', before = first :: before' ∧ xs = before' ++ s :: after' ∧
        after = after' ++ [last]) ∨
      (before = first :: xs ∧ s = last ∧ after = []) := by
  cases before with
  | nil =>
    obtain ⟨rfl, rfl⟩ := List.cons.inj h
    exact .inl ⟨rfl, rfl, rfl⟩
  | cons b before =>
    obtain ⟨rfl, htail⟩ := List.cons.inj h
    rcases split_append htail with ⟨after', hxs, rfl⟩ | ⟨before', rfl, hlast⟩
    · exact .inr (.inl ⟨before, after', rfl, hxs, rfl⟩)
    · obtain ⟨rfl, rfl, rfl⟩ : before' = [] ∧ last = s ∧ after = [] := by
        cases before' <;> simp_all
      exact .inr (.inr ⟨by simp, rfl, rfl⟩)

namespace Sticky

variable {events events' : List Event} {ending ending' : Ending} {p : Parser}

theorem nil (ending : Ending) : Sticky [] ending :=
  ⟨fun _ => rfl, fun _ _ _ _ h => by simp at h, fun _ _ _ _ h => by simp at h⟩

/-- Runs in a row: after a stop the second one must be empty. -/
theorem append (h : Sticky events ending) (h' : Sticky events' ending')
    (hstop : ending.stops = true → events' = [] ∧ ending' = ending) :
    Sticky (events ++ events') ending' := by
  refine ⟨fun calls => ?_, fun before q e after heq => ?_, fun before s after e heq hs => ?_⟩
  · rw [openCalls_append, h.balanced, h'.balanced]
  · rcases split_append heq with ⟨after', hfirst, -⟩ | ⟨before', rfl, hsecond⟩
    · exact h.nested before q e after' hfirst
    · obtain ⟨inner, hinner⟩ := h'.nested before' q e after hsecond
      exact ⟨inner, fun calls => by rw [openCalls_append, h.balanced, hinner]⟩
  · rcases split_append heq with ⟨after', hfirst, rfl⟩ | ⟨before', rfl, hsecond⟩
    · -- what stops the first run leaves nothing for the second, unless it was caught
      obtain ⟨inner, hinner, hpass⟩ := h.stops before s after' e hfirst hs
      refine ⟨inner, hinner, hpass.append ?_⟩
      rintro rfl
      exact hstop (Event.stops_of_stop? hs)
    · obtain ⟨inner, hinner, hpass⟩ := h'.stops before' s after e hsecond hs
      refine ⟨inner, fun calls => ?_, hpass⟩
      rw [List.append_assoc, openCalls_append, h.balanced, hinner]

/-- A call around a run ends in what it makes of the run's end. -/
theorem within (h : Sticky events ending) (hp : ending.stops = true → ending' = p.meets ending) :
    Sticky (.entered p :: (events ++ [.left p ending'])) ending' := by
  refine ⟨fun calls => by simp [openCalls_append, h.balanced], fun before q e after heq => ?_,
    fun before s after e heq hs => ?_⟩
  · rcases split_call heq with ⟨-, hq, -⟩ | ⟨before', after', rfl, hbody, -⟩ | ⟨rfl, hq, -⟩
    · cases hq
    · obtain ⟨inner, hinner⟩ := h.nested before' q e after' hbody
      exact ⟨inner ++ [p], fun calls => by simp [hinner]⟩
    · cases hq
      exact ⟨[], fun calls => by simp [h.balanced]⟩
  · rcases split_call heq with ⟨-, rfl, -⟩ | ⟨before', after', rfl, hbody, rfl⟩ | ⟨rfl, rfl, rfl⟩
    · cases hs
    · obtain ⟨inner, hinner, hpass⟩ := h.stops before' s after' e hbody hs
      refine ⟨inner ++ [p], fun calls => by simp [hinner], hpass.within ?_⟩
      rintro rfl
      exact hp (Event.stops_of_stop? hs)
    · obtain ⟨-, rfl⟩ : ending'.stops = true ∧ ending' = e := by simpa [Event.stop?] using hs
      exact ⟨[], fun calls => by simp [openCalls_append, h.balanced], rfl, rfl⟩

/-- After a function of the caller: a fault that it raises must be the end. -/
theorem applied (h : Sticky events ending) {fault : Option Fault}
    (hf : ∀ f, fault = some f → events = [] ∧ ending = .raised f) :
    Sticky (.applied fault :: events) ending := by
  refine ⟨h.balanced, fun before q e after heq => ?_, fun before s after e heq hs => ?_⟩
  · cases before with
    | nil => cases heq
    | cons _ before =>
      obtain ⟨rfl, htail⟩ := List.cons.inj heq
      exact h.nested before q e after htail
  · cases before with
    | nil =>
      obtain ⟨rfl, rfl⟩ := List.cons.inj heq
      obtain ⟨f, rfl, rfl⟩ := Option.map_eq_some_iff.1 hs
      exact ⟨[], fun calls => rfl, hf f rfl⟩
    | cons _ before =>
      obtain ⟨rfl, htail⟩ := List.cons.inj heq
      exact h.stops before s after e htail hs

end Sticky

/-! ### Observed runs are sticky -/

namespace Observed

/-- The events of an observed run are sticky. -/
def IsSticky (o : Observed) : Prop := Sticky o.events o.run.ending

variable {o : Observed} {body : Cursor → Observed} {c : Cursor}

theorem sticky_silent (r : Run Cursor) : (silent r).IsSticky := .nil _

theorem sticky_within {p : Parser} (h : o.IsSticky) (hp : ∀ e, p.catches e = false) :
    (within p o).IsSticky :=
  Sticky.within h fun _ => by simp [Parser.meets, hp]

theorem sticky_attempt (h : ∀ d, (body d).IsSticky) : (attempt body c).IsSticky := by
  unfold IsSticky
  rw [run_attempt, ending_attempt]
  exact h c.fork

theorem sticky_probe (h : ∀ d, (body d).IsSticky) : (probe body c).IsSticky := h c.fork

/-- What follows an outcome must leave a failure as it is. -/
theorem sticky_andThen {next : Outcome → Cursor → Observed} (h : o.IsSticky)
    (hn : ∀ x d, (next x d).IsSticky)
    (hf : ∀ e d, (next (.failed e) d).events = [] ∧
      (next (.failed e) d).run.ending = .answered (.failed e)) :
    (o.andThen next).IsSticky := by
  by_cases hr : ∃ x, o.run.ending = .answered x
  · obtain ⟨x, hx⟩ := hr
    rw [IsSticky, events_andThen_of_answered hx, run_andThen, Run.andThen_of_answered hx,
      Run.ending_after]
    refine Sticky.append h (hn x o.run.state) fun hs => ?_
    rw [hx] at hs ⊢
    obtain ⟨e, rfl⟩ := Ending.stops_of_answered hs
    exact hf e o.run.state
  · rw [andThen_of_not_answered fun x hx => hr ⟨x, hx⟩]
    exact h

theorem sticky_onMatch {next : Value → Cursor → Observed} (h : o.IsSticky)
    (hn : ∀ v d, (next v d).IsSticky) : (o.onMatch next).IsSticky := by
  refine sticky_andThen h ?_ fun _ _ => ⟨rfl, rfl⟩
  rintro (v | _ | e) d
  · exact hn v d
  · exact sticky_silent _
  · exact sticky_silent _

theorem sticky_orElse {next : Cursor → Observed} (h : o.IsSticky)
    (hn : ∀ d, (next d).IsSticky) : (o.orElse next).IsSticky := by
  refine sticky_andThen h ?_ fun _ _ => ⟨rfl, rfl⟩
  rintro (v | _ | e) d
  · exact sticky_silent _
  · exact hn d
  · exact sticky_silent _

theorem sticky_output (h : o.IsSticky) (f : Value → Cursor → Except Fault Value) :
    (o.output f).IsSticky :=
  sticky_onMatch h fun _ _ => sticky_silent _

theorem sticky_applying {α : Type} {r : Except Fault α} (h : o.IsSticky)
    (hf : ∀ f, r = .error f → o.events = [] ∧ o.run.ending = .raised f) :
    (applying (raised? r) o).IsSticky := by
  refine Sticky.applied h fun f hr => ?_
  cases r with
  | error f' =>
    cases hr
    exact hf f rfl
  | ok a => cases hr

theorem sticky_answering (r : Except Fault Outcome) (c : Cursor) : (answering r c).IsSticky := by
  refine sticky_applying (sticky_silent _) fun f hr => ?_
  rw [hr]
  exact ⟨rfl, rfl⟩

/-- A call that turns failures into non-matches. -/
theorem sticky_forgiving (p : Parser) {next : Outcome → Cursor → Observed} (h : o.IsSticky)
    (hsilent : ∀ x d, (next x d).events = [])
    (hf : ∀ e d, (next (.failed e) d).run.ending = .answered .notMatched) :
    (within (.forgive p) (o.andThen next)).IsSticky := by
  have events : (o.andThen next).events = o.events := by
    unfold andThen
    dsimp only
    split
    · rw [hsilent, List.append_nil]
    · rfl
  unfold IsSticky within
  rw [events]
  refine Sticky.within h fun hs => ?_
  rw [run_andThen]
  cases hr : o.run.ending with
  | exhausted => rw [Run.andThen_of_exhausted hr, hr]; rfl
  | raised f => rw [Run.andThen_of_raised hr, hr]; rfl
  | answered x =>
    rw [hr] at hs
    -- the only outcome that stops calls is the one that is turned into a non-match
    obtain ⟨e, rfl⟩ := Ending.stops_of_answered hs
    rw [Run.andThen_of_answered hr]
    exact hf e o.run.state

theorem sticky_repeatFrom (b : Bounds) (h : ∀ d, (body d).IsSticky) (budget : Nat)
    (outputs : List Value) : (repeatFrom b body budget outputs c).IsSticky := by
  induction budget generalizing outputs c with
  | zero => exact sticky_silent _
  | succ budget ih =>
    refine sticky_andThen (h c) ?_ fun _ _ => ⟨rfl, rfl⟩
    rintro (v | _ | e) d
    · dsimp only
      split
      · exact sticky_silent _
      · exact ih _
    · exact sticky_silent _
    · exact sticky_silent _

end Observed

section Parsers

open Observed

variable {items : Items} {call : Nat → Cursor → Observed}

mutual

/-- Calls of parsers are sticky if calls of handles are. -/
theorem Parser.sticky_observe (hcall : ∀ n c, (call n c).IsSticky) :
    ∀ (p : Parser) (c : Cursor), (within p (p.inside items call c)).IsSticky
  | .literal _ _, _ | .oneOf _, _ | .item, _ | .empty, _ | .atEnd, _ | .custom _, _ =>
    sticky_within (sticky_silent _) fun _ => rfl
  | .seq first second, c =>
    have hf := Parser.sticky_observe hcall first
    have hs := Parser.sticky_observe hcall second
    sticky_within (sticky_attempt fun tx => sticky_onMatch (hf tx) fun _ d =>
      sticky_output (hs d) _) fun _ => rfl
  | .choice first others, _ =>
    have hf := Parser.sticky_observe hcall first
    have ho := Parser.sticky_insideFirst hcall others
    sticky_within (sticky_attempt fun _ => sticky_orElse (sticky_attempt hf) ho) fun _ => rfl
  | .optional parser, c =>
    have hp := Parser.sticky_observe hcall parser
    sticky_within (sticky_orElse (sticky_attempt hp) fun _ => sticky_silent _) fun _ => rfl
  | .absent parser, c => by
    have hp := Parser.sticky_observe hcall parser
    refine sticky_within (sticky_andThen (sticky_probe hp) ?_ fun _ _ => ⟨rfl, rfl⟩) fun _ => rfl
    rintro (v | _ | e) d <;> exact sticky_silent _
  | .times parser bounds, c =>
    have hp := Parser.sticky_observe hcall parser
    sticky_within (sticky_attempt fun _ =>
      sticky_repeatFrom bounds (fun _ => sticky_attempt hp) _ _) fun _ => rfl
  | .map parser function, c =>
    have hp := Parser.sticky_observe hcall parser
    sticky_within (sticky_attempt fun tx => sticky_onMatch (hp tx) fun _ _ =>
      sticky_answering _ _) fun _ => rfl
  | .withSpan parser, c =>
    have hp := Parser.sticky_observe hcall parser
    sticky_within (sticky_attempt fun tx => sticky_output (hp tx) _) fun _ => rfl
  | .lookingAt parser peek, c =>
    have hp := Parser.sticky_observe hcall parser
    have hq := Parser.sticky_observe hcall peek
    sticky_within (sticky_attempt fun tx => sticky_onMatch (hp tx) fun _ _ =>
      sticky_output (sticky_probe hq) _) fun _ => rfl
  | .seqBy parser choose, c =>
    have hp := Parser.sticky_observe hcall parser
    have hq := fun v => Parser.sticky_insideChosen hcall (choose v)
    sticky_within (sticky_attempt fun tx => sticky_onMatch (hp tx) fun v d =>
      sticky_applying (sticky_output (hq v d) _) fun _ hr => by
        rw [hr]
        exact ⟨rfl, rfl⟩) fun _ => rfl
  | .lookingAtBy parser choose, c =>
    have hp := Parser.sticky_observe hcall parser
    have hq := fun v => Parser.sticky_insideChosen hcall (choose v)
    sticky_within (sticky_attempt fun tx => sticky_onMatch (hp tx) fun v _ =>
      sticky_applying (sticky_output (sticky_probe (hq v)) _) fun _ hr => by
        rw [hr]
        exact ⟨rfl, rfl⟩) fun _ => rfl
  | .require parser error, c => by
    have hp := Parser.sticky_observe hcall parser
    refine sticky_within (sticky_attempt fun tx => sticky_andThen (hp tx) ?_ fun _ _ =>
      ⟨rfl, rfl⟩) fun _ => rfl
    rintro (v | _ | e) d
    · exact sticky_silent _
    · exact sticky_answering _ _
    · exact sticky_silent _
  | .reject parser error, c => by
    have hp := Parser.sticky_observe hcall parser
    refine sticky_within (sticky_probe fun tx => sticky_andThen (hp tx) ?_ fun _ _ =>
      ⟨rfl, rfl⟩) fun _ => rfl
    rintro (v | _ | e) d
    · exact sticky_answering _ _
    · exact sticky_silent _
    · exact sticky_silent _
  | .forgive parser, c => by
    have hp := Parser.sticky_observe hcall parser
    refine sticky_forgiving parser (sticky_attempt hp) ?_ fun _ _ => rfl
    rintro (v | _ | e) d <;> rfl
  | .traced parser title, c =>
    have hp := Parser.sticky_observe hcall parser
    sticky_within (sticky_andThen (hp c) (fun _ _ => sticky_silent _) fun _ _ => ⟨rfl, rfl⟩)
      fun _ => rfl
  | .handle number, c => sticky_within (hcall number c) fun _ => rfl

theorem Parser.sticky_insideFirst (hcall : ∀ n c, (call n c).IsSticky) :
    ∀ (ps : List Parser) (c : Cursor), (Parser.insideFirst items call ps c).IsSticky
  | [], _ => sticky_silent _
  | p :: ps, _ =>
    have hp := Parser.sticky_observe hcall p
    have hps := Parser.sticky_insideFirst hcall ps
    sticky_orElse (sticky_attempt hp) hps

theorem Parser.sticky_insideChosen (hcall : ∀ n c, (call n c).IsSticky) :
    ∀ (r : Except Fault Parser) (c : Cursor),
      (Parser.insideChosen items call r c).IsSticky
  | .error _, _ => sticky_silent _
  | .ok p, c => Parser.sticky_observe hcall p c

end

theorem Grammar.sticky_observeCall (g : Grammar) (items : Items) (depth handle : Nat) (c : Cursor) :
    (g.observeCall items depth handle c).IsSticky := by
  induction depth generalizing handle c with
  | zero => exact sticky_silent _
  | succ depth ih =>
    unfold observeCall
    split
    · exact sticky_silent _
    · exact sticky_attempt (Parser.sticky_observe ih _)

theorem Parser.sticky_observeWithin (g : Grammar) (items : Items) (depth : Nat) (p : Parser)
    (c : Cursor) : (p.observeWithin g items depth c).IsSticky :=
  p.sticky_observe (g.sticky_observeCall items depth) c

end Parsers

/-! ### What is not caught, and what never fails -/

section Laws

variable {events before after : List Event} {ending : Ending}

/-- The calls that are open when a call ends are that call and those which its end passes
through. -/
theorem Sticky.passes_of_left (h : Sticky events ending) {q : Parser} {e : Ending}
    (heq : events = before ++ .left q e :: after) (hs : e.stops = true) :
    ∃ outer, openCalls [] before = q :: outer ∧ Passes e outer after ending := by
  obtain ⟨inner, hinner⟩ := h.nested before q e after heq
  obtain ⟨outer, houter, hpass⟩ := h.stops before (.left q e) after e heq (by simp [Event.stop?, hs])
  -- both lists are what is open after `q` ended
  have hopen := hinner []
  have hleft := houter []
  rw [openCalls_append, hopen] at hleft
  simp only [openCalls_left, List.tail_cons, openCalls_nil, List.append_nil] at hopen hleft
  exact ⟨inner, hopen, hleft ▸ hpass⟩

/-- A fault of a caller's function passes through all calls that are open. -/
theorem Sticky.passes_of_applied (h : Sticky events ending) {f : Fault}
    (heq : events = before ++ .applied (some f) :: after) :
    Passes (.raised f) (openCalls [] before) after ending := by
  obtain ⟨outer, houter, hpass⟩ := h.stops before (.applied (some f)) after (.raised f) heq rfl
  have hopen := houter []
  rw [openCalls_append, openCalls_applied, openCalls_nil, List.append_nil] at hopen
  exact hopen ▸ hpass

theorem Parser.catches_failed {q : Parser} {e : Value} (h : ∀ b, q ≠ .forgive b) :
    q.catches (.answered (.failed e)) = false := by
  cases q with
  | forgive b => exact absurd rfl (h b)
  | _ => rfl

theorem Parser.catches_raised (q : Parser) (f : Fault) : q.catches (.raised f) = false := by
  cases q <;> rfl

/-- Whether the parser makes errors of its own. -/
def Parser.originates : Parser → Bool
  | .require _ _ | .reject _ _ | .custom _ => true
  | _ => false

/-- Everything but failing. -/
theorem benign_unfailed : Benign fun e => ∀ v, e ≠ .answered (.failed v) :=
  ⟨fun _ => by simp, by simp, fun _ => by simp⟩

variable {items : Items}

/-- Parsers in which nothing makes errors do not fail if calls of handles do not. -/
theorem Parser.ends_unfailed {call : Nat → Cursor → Run Cursor} (p : Parser)
    (hp : ∀ q, p.Contains q → q.originates = false) (hsteady : ∀ n, Steady items (call n))
    (hcall : ∀ n, EndsIn items (fun e => ∀ v, e ≠ .answered (.failed v)) (call n)) :
    EndsIn items (fun e => ∀ v, e ≠ .answered (.failed v)) (p.runWith items call) := by
  refine p.ends_in benign_unfailed hsteady fun q hq => ?_
  have quiet := hp q hq
  cases q with
  | handle n => exact hcall n
  | custom _ | require _ _ | reject _ _ => cases quiet
  | _ => trivial

theorem Grammar.ends_call_unfailed {g : Grammar} (hg : ∀ q, g.Contains q → q.originates = false)
    (depth handle : Nat) :
    EndsIn items (fun e => ∀ v, e ≠ .answered (.failed v)) (g.call items depth handle) := by
  induction depth generalizing handle with
  | zero => exact fun _ _ => by simp [call, Run.exhaust]
  | succ depth ih =>
    intro c hc
    unfold call
    split
    · exact benign_unfailed.raised _
    · rename_i p hp
      exact (p.ends_unfailed (fun q hq => hg q ⟨handle, p, hp, hq⟩) (g.steady_call items depth)
        ih).attempt c hc

end Laws

/-- Observing a run does not change it, and shows the following.  If a call fails, then the calls
around it all end in the same error, and nothing else happens, unless one of them forgives errors.
Otherwise those within the innermost such call end in that error, and it declines next.  If a call
or a function of the caller raises a fault, all calls around end in it, and nothing else happens.
And without parsers that make errors no run fails. -/
theorem failures_and_faults_pass_outwards (g : Grammar) (items : Items) (depth : Nat) (p : Parser)
    (c : Cursor) :
    let o := p.observeWithin g items depth c
    o.run = p.runWithin g items depth c ∧
      (∀ before q e after, o.events = before ++ .left q (.answered (.failed e)) :: after →
        ∃ outer, openCalls [] before = q :: outer ∧
          ((∀ b, Parser.forgive b ∉ outer) →
            o.run.ending = .answered (.failed e) ∧
              after = outer.map (Event.left · (.answered (.failed e)))) ∧
          ∀ inner b rest, outer = inner ++ .forgive b :: rest →
            (∀ b', Parser.forgive b' ∉ inner) →
            ∃ later, after = inner.map (Event.left · (.answered (.failed e))) ++
              .left (.forgive b) (.answered .notMatched) :: later) ∧
      (∀ before q f after, o.events = before ++ .left q (.raised f) :: after →
        ∃ outer, openCalls [] before = q :: outer ∧ o.run.ending = .raised f ∧
          after = outer.map (Event.left · (.raised f))) ∧
      (∀ before f after, o.events = before ++ .applied (some f) :: after →
        o.run.ending = .raised f ∧ after = (openCalls [] before).map (Event.left · (.raised f))) ∧
      ((∀ q, p.Contains q ∨ g.Contains q → q.originates = false) → c.Placed items →
        ∀ e, o.run.ending ≠ .answered (.failed e)) := by
  intro o
  have sticky : Sticky o.events o.run.ending := p.sticky_observeWithin g items depth c
  have same : o.run = p.runWithin g items depth c := p.run_observeWithin g depth c
  refine ⟨same, fun before q e after heq => ?_, fun before q f after heq => ?_,
    fun before f after heq => ?_, fun quiet hc => ?_⟩
  · obtain ⟨outer, hopen, hpass⟩ := sticky.passes_of_left heq rfl
    refine ⟨outer, hopen, fun hn => ?_, fun inner b rest hsplit hn => ?_⟩
    · exact hpass.to_end fun r hr => Parser.catches_failed fun b hb => hn b (hb ▸ hr)
    · rw [hsplit] at hpass
      exact hpass.to_catch (fun r hr => Parser.catches_failed fun b hb => hn b (hb ▸ hr)) rfl
  · obtain ⟨outer, hopen, hpass⟩ := sticky.passes_of_left heq rfl
    exact ⟨outer, hopen, hpass.to_end fun r _ => r.catches_raised f⟩
  · exact (sticky.passes_of_applied heq).to_end fun r _ => r.catches_raised f
  · rw [same]
    exact p.ends_unfailed (fun q hq => quiet q (.inl hq)) (g.steady_call items depth)
      (g.ends_call_unfailed (fun q hq => quiet q (.inr hq)) depth) c hc

/-- A `b`, which must not be missing. -/
def Parser.strictB : Parser :=
  .require (.literal (.ofText (.ofChars ['b'])) .nothing) fun s => .ok (.span s)

/-- Any item, and then a `b`; an item alone is also taken. -/
def Parser.lenientPair : Parser := .choice (.forgive (.seq .item .strictB)) [.item]

/-- After the first item the `b` is missing.  The sequence fails as well, and then the error is
forgiven; the choice goes on. -/
theorem failures_and_faults_pass_outwards_to_forgiving :
    let o := Parser.lenientPair.observeWithin .empty (.ofText (.ofChars ['a', 'c'])) 0 .start
    let failed : Ending := .answered (.failed (.span (.point 1)))
    o.run.state.position = 1 ∧
      ∃ before later,
        openCalls [] before =
          [.strictB, .seq .item .strictB, .forgive (.seq .item .strictB), .lenientPair] ∧
        o.events = before ++ .left .strictB failed :: .left (.seq .item .strictB) failed ::
          .left (.forgive (.seq .item .strictB)) (.answered .notMatched) :: later := by
  intro o failed
  obtain ⟨before, after, hopened, heq⟩ : ∃ before after,
      openCalls [] before =
        [.strictB, .seq .item .strictB, .forgive (.seq .item .strictB), .lenientPair] ∧
      o.events = before ++ .left .strictB failed :: after :=
    ⟨o.events.take 9, o.events.drop 10, rfl, rfl⟩
  obtain ⟨outer, hopen, -, hforgiven⟩ := (failures_and_faults_pass_outwards .empty
    (.ofText (.ofChars ['a', 'c'])) 0 .lenientPair .start).2.1 before .strictB _ after heq
  obtain ⟨-, rfl⟩ := List.cons.inj (hopened.symm.trans hopen)
  obtain ⟨later, rfl⟩ := hforgiven [.seq .item .strictB] (.seq .item .strictB) [.lenientPair] rfl
    (by simp)
  exact ⟨rfl, before, later, hopened, heq⟩

end Backtrack
