import Backtrack.Proofs.Progress

/-!
# Parsers do not see the context of their stream

Two streams that stand at the same place, of whatever depth and with whatever start, give a parser
the same outcome and are left at the same place.  The reason is that a fork is made from its
parent's position alone (`Cursor.fork_congr`), and that nothing but a trace looks at the span of the
stream it was given.  What a trace logs is that span, so the logs differ in where such spans start.

* `ContextFree`: a body for which this holds.
* `Parser.contextFree`: it holds of every parser.
-/

namespace Backtrack

namespace Cursor

variable {items items' : Items} {c d : Cursor}

/-- Forks of streams that stand at the same place are the same. -/
theorem fork_congr (hc : c.Placed items) (hd : d.Placed items') (h : c.position = d.position) :
    c.fork = d.fork := by
  have hstop : c.span.stop = d.span.stop := by rw [← hc.sound, ← hd.sound, h]
  simp [fork, h, hstop]

end Cursor

/-- The entry with the span of a trace cut down to where it ends. -/
def Entry.ended : Entry → Entry
  | traced title span outcome => .traced title (.point span.stop) outcome
  | e => e

/-- Runs that end alike and at the same place, and whose logs differ at most in where the spans of
traces start. -/
structure Run.Parallel (r r' : Run Cursor) : Prop where
  ending : r.ending = r'.ending
  position : r.state.position = r'.state.position
  log : r.log.map Entry.ended = r'.log.map Entry.ended

theorem Run.Parallel.trans {r r' r'' : Run Cursor} (h : r.Parallel r') (h' : r'.Parallel r'') :
    r.Parallel r'' :=
  ⟨h.ending.trans h'.ending, h.position.trans h'.position, h.log.trans h'.log⟩

/-- A body whose runs are parallel from any two cursors at the same place. -/
def ContextFree (items : Items) (body : Cursor → Run Cursor) : Prop :=
  ∀ c d : Cursor, c.Placed items → d.Placed items → c.position = d.position →
    (body c).Parallel (body d)

section Combinators

variable {items : Items} {body : Cursor → Run Cursor}

theorem contextFree_attempt (body : Cursor → Run Cursor) : ContextFree items (attempt body) := by
  intro c d hc hd h
  have hfork := Cursor.fork_congr hc hd h
  refine ⟨by rw [ending_attempt, ending_attempt, hfork], ?_, by
    rw [log_attempt, log_attempt, hfork]⟩
  by_cases hm : ∃ v, (body c.fork).ending = .answered (.matched v)
  · obtain ⟨v, hv⟩ := hm
    rw [state_attempt_of_matched hv, state_attempt_of_matched (hfork ▸ hv), hfork]
    rfl
  · rw [state_attempt_of_not_matched fun v hv => hm ⟨v, hv⟩,
      state_attempt_of_not_matched fun v hv => hm ⟨v, hfork ▸ hv⟩, h]

theorem contextFree_probe (body : Cursor → Run Cursor) : ContextFree items (probe body) := by
  intro c d hc hd h
  have hfork := Cursor.fork_congr hc hd h
  exact ⟨by rw [ending_probe, ending_probe, hfork], h, by rw [log_probe, log_probe, hfork]⟩

theorem contextFree_andThen {next : Outcome → Cursor → Run Cursor} (h : ContextFree items body)
    (hs : Steady items body) (hn : ∀ o, ContextFree items (next o)) :
    ContextFree items fun c => (body c).andThen next := by
  intro c d hc hd hcd
  have first := h c d hc hd hcd
  dsimp only
  cases hr : (body c).ending with
  | exhausted =>
    rw [Run.andThen_of_exhausted hr, Run.andThen_of_exhausted (first.ending ▸ hr)]
    exact first
  | raised f =>
    rw [Run.andThen_of_raised hr, Run.andThen_of_raised (first.ending ▸ hr)]
    exact first
  | answered o =>
    rw [Run.andThen_of_answered hr, Run.andThen_of_answered (first.ending ▸ hr)]
    have second := hn o _ _ (hs c hc).placed (hs d hd).placed first.position
    exact ⟨second.ending, second.position, by simp [first.log, second.log]⟩

/-- A body that leaves the stream alone, and looks at no more than where it stands. -/
theorem contextFree_stay (e : Ending) (log : Nat → List Entry) {body : Cursor → Run Cursor}
    (h : ∀ c, c.Placed items → (body c).ending = e ∧ (body c).state = c ∧
      (body c).log.map Entry.ended = log c.position) : ContextFree items body := by
  intro c d hc hd hcd
  obtain ⟨ending, state, hlog⟩ := h c hc
  obtain ⟨ending', state', hlog'⟩ := h d hd
  exact ⟨ending.trans ending'.symm, by rw [state, state', hcd], by rw [hlog, hlog', hcd]⟩

theorem contextFree_answer (o : Outcome) : ContextFree items (Run.answer o) :=
  contextFree_stay _ (fun _ => []) fun _ _ => ⟨rfl, rfl, rfl⟩

theorem contextFree_orElse {next : Cursor → Run Cursor} (h : ContextFree items body)
    (hs : Steady items body) (hn : ContextFree items next) :
    ContextFree items fun c => (body c).orElse next := by
  refine contextFree_andThen h hs ?_
  rintro (v | _ | e)
  · exact contextFree_answer _
  · exact hn
  · exact contextFree_answer _

theorem contextFree_reply_probe (body : Cursor → Run Cursor)
    {f : Outcome → Cursor → Except Fault Outcome} (hf : ∀ o c d, f o c = f o d) :
    ContextFree items fun c => (probe body c).reply f := by
  refine contextFree_andThen (contextFree_probe body) (steady_probe body) fun o c d _ _ h => ?_
  rw [hf o c d]
  cases f o d <;> exact ⟨rfl, h, rfl⟩

theorem contextFree_readItem : ContextFree items (Cursor.readItem items) := by
  intro c d _ _ h
  cases counted : items.isCountable with
  | false =>
    rw [Cursor.readItem_of_uncountable counted, Cursor.readItem_of_uncountable counted]
    exact ⟨rfl, h, rfl⟩
  | true =>
    cases hv : items.get? c.position with
    | none =>
      rw [Cursor.readItem_of_none counted hv, Cursor.readItem_of_none counted (h ▸ hv)]
      exact ⟨rfl, h, rfl⟩
    | some v =>
      rw [Cursor.readItem_of_some counted hv, Cursor.readItem_of_some counted (h ▸ hv)]
      exact ⟨rfl, congrArg (· + 1) h, rfl⟩

/-- What a function merged itself leaves parents at the same place at the same place. -/
theorem position_outer_congr {c d : Cursor} (b : Branch) (h : c.position = d.position) :
    (b.outer c).position = (b.outer d).position := by
  unfold Branch.outer
  cases b.merged with
  | none => exact h
  | some _ => rfl

/-- A function sees the fork that it is given, and nothing else. -/
theorem contextFree_closeFunction (run : Cursor → Run Forks) :
    ContextFree items fun c => closeFunction c (run c.fork) := by
  intro c d hc hd h
  have hfork := Cursor.fork_congr hc hd h
  dsimp only
  rw [← hfork]
  unfold closeFunction
  split
  · refine ⟨rfl, ?_, rfl⟩
    simp only [Run.state_withState]
    split
    · rfl
    · exact position_outer_congr _ h
  · exact ⟨rfl, position_outer_congr _ h, rfl⟩
  · exact ⟨rfl, h, rfl⟩

/-- A trace logs the span of the stream that it was given. -/
theorem contextFree_trace (title : String) (o : Outcome) :
    ContextFree items fun c => ⟨.answered o, c, [.traced title c.span o]⟩ := by
  refine contextFree_stay (.answered o) (fun i => [.traced title (.point i) o]) fun c hc => ?_
  exact ⟨rfl, rfl, by rw [hc.sound]; rfl⟩

end Combinators

section Parsers

variable {items : Items} {call : Nat → Cursor → Run Cursor}

/-- Whatever starts with an attempt or a probe sees its fork alone. -/
theorem Parser.contextFree (hcall : ∀ n, ContextFree items (call n))
    (hsteady : ∀ n, Steady items (call n)) :
    ∀ p : Parser, ContextFree items (p.runWith items call)
  | .literal _ _ | .oneOf _ | .seq _ _ | .choice _ _ | .times _ _ | .map _ _ | .withSpan _
  | .lookingAt _ _ | .seqBy _ _ | .lookingAtBy _ _ | .require _ _ => contextFree_attempt _
  | .reject _ _ => contextFree_probe _
  | .atEnd => contextFree_reply_probe _ fun _ _ _ => rfl
  | .absent _ => contextFree_reply_probe _ (by rintro (v | _ | e) _ _ <;> rfl)
  | .optional parser =>
    contextFree_orElse (contextFree_attempt _) (steady_attempt (parser.steady hsteady))
      (contextFree_answer _)
  | .forgive parser => by
    refine contextFree_andThen (contextFree_attempt _)
      (steady_attempt (parser.steady hsteady)) ?_
    rintro (v | _ | e)
    · exact contextFree_answer _
    · exact contextFree_answer _
    · exact contextFree_stay _ (fun i => [.discarded e i]) fun _ _ => ⟨rfl, rfl, rfl⟩
  | .item => contextFree_readItem
  | .empty => contextFree_answer _
  | .custom rule =>
    contextFree_closeFunction fun c => rule.runWith items call (.single c .handedIn)
  | .traced parser _ =>
    contextFree_andThen (Parser.contextFree hcall hsteady parser) (parser.steady hsteady)
      (contextFree_trace _)
  | .handle number => hcall number

theorem Grammar.contextFree_call (g : Grammar) (items : Items) (depth handle : Nat) :
    ContextFree items (g.call items depth handle) := by
  cases depth with
  | zero => exact contextFree_stay .exhausted (fun _ => []) fun _ _ => ⟨rfl, rfl, rfl⟩
  | succ depth =>
    cases hp : g.definition? handle with
    | none =>
      refine contextFree_stay (.raised .undefinedHandle) (fun _ => []) fun c _ => ?_
      simp only [Grammar.call, hp]
      exact ⟨rfl, rfl, rfl⟩
    | some p =>
      intro c d
      simp only [Grammar.call, hp]
      exact contextFree_attempt _ c d

end Parsers

end Backtrack
