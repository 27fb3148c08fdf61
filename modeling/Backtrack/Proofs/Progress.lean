import Backtrack.Grammar
import Backtrack.Proofs.StreamTree

/-!
# Runs only move forward

A run of a parser leaves its stream in order: the stream keeps the start of its span, stands where
its span ends, and has not moved back.  This holds of every parser, with any rules in it, and of
every way in which a run ends.

* `Cursor.Extends`: a later state of the same stream.
* `Steady`: a body that leads every placed cursor to a later state.
* `Parser.steady`: every parser is steady, given that calls of handles are.
* `Grammar.steady_call` closes the circle through the definitions of handles, and
  `Parser.extends_runWithin` says the same of whole runs.
-/

namespace Backtrack

namespace Cursor

/-- `d` is a later state of the stream that stood at `c`. -/
structure Extends (items : Items) (c d : Cursor) : Prop where
  placed : d.Placed items
  start_eq : d.span.start = c.span.start
  le : c.position ≤ d.position

variable {items : Items} {c d e : Cursor}

theorem Placed.extends_self (h : c.Placed items) : c.Extends items c := ⟨h, rfl, Nat.le_refl _⟩

theorem Extends.trans (h₁ : c.Extends items d) (h₂ : d.Extends items e) : c.Extends items e :=
  ⟨h₂.placed, h₂.start_eq.trans h₁.start_eq, Nat.le_trans h₁.le h₂.le⟩

theorem Placed.extends_read (h : c.Placed items) : c.Extends items (c.read items).2 := by
  refine ⟨h.read, start_read items c, ?_⟩
  cases hv : items.get? c.position with
  | none => simp [read_of_none hv]
  | some v => simp [read_of_some hv]

/-- Merging a later state of a fork leads to a later state of the parent. -/
theorem Extends.merge (hc : c.Placed items) (h : c.fork.Extends items d) :
    c.Extends items (c.merge d) := by
  have hle : c.span.stop ≤ d.span.stop := by
    rw [← h.placed.sound, ← hc.sound]
    exact h.le
  exact ⟨h.placed.merge (Nat.le_trans c.span.start_le_stop hle), rfl, h.le⟩

/-- A later state of a stream is what it becomes by merging any fork that stands at the same
place. -/
theorem merge_eq_of_extends (h : c.Extends items d) (he : e.Placed items)
    (hpos : e.position = d.position) : c.merge e = d := by
  have hstop : e.span.stop = d.span.stop := by rw [← he.sound, ← h.placed.sound, hpos]
  have hle : c.span.start ≤ e.span.stop := by
    rw [hstop, ← h.start_eq]
    exact d.span.start_le_stop
  have hspan : (c.merge e).span = d.span :=
    Span.ext h.start_eq.symm (by rw [span_merge, Span.stop_upTo hle, hstop])
  cases d
  exact congrArg₂ Cursor.mk hpos hspan

theorem extends_of_readAll {pattern : Items} {k count : Nat} (hc : c.Placed items)
    (h : c.readAll items pattern k count = .ok (some d)) : c.Extends items d := by
  induction count generalizing c k with
  | zero =>
    cases h
    exact hc.extends_self
  | succ count ih =>
    have step := hc.extends_read
    cases counted : items.isCountable with
    | false =>
      rw [readAll_of_uncountable counted] at h
      cases h
    | true =>
      rw [readAll_succ counted] at h
      split at h
      · rename_i v c' expected hread _
        rw [hread] at step
        split at h
        · exact step.trans (ih step.placed h)
        · cases h
      · cases h

end Cursor

/-- A body that leads every placed cursor to a later state of its stream. -/
def Steady (items : Items) (body : Cursor → Run Cursor) : Prop :=
  ∀ c : Cursor, c.Placed items → c.Extends items (body c).state

section Combinators

variable {items : Items} {c : Cursor} {body : Cursor → Run Cursor} {r : Run Cursor}

theorem steady_attempt (h : Steady items body) : Steady items (attempt body) := by
  intro c hc
  by_cases hm : ∃ v, (body c.fork).ending = .answered (.matched v)
  · obtain ⟨v, hv⟩ := hm
    rw [state_attempt_of_matched hv]
    exact .merge hc (h c.fork hc.fork)
  · rw [state_attempt_of_not_matched fun v hv => hm ⟨v, hv⟩]
    exact hc.extends_self

theorem steady_probe (body : Cursor → Run Cursor) : Steady items (probe body) :=
  fun _ hc => hc.extends_self

theorem extends_andThen {next : Outcome → Cursor → Run Cursor} (hr : c.Extends items r.state)
    (hn : ∀ o, Steady items (next o)) : c.Extends items (r.andThen next).state := by
  cases h : r.ending with
  | exhausted => rwa [Run.andThen_of_exhausted h]
  | raised _ => rwa [Run.andThen_of_raised h]
  | answered o =>
    rw [Run.andThen_of_answered h]
    exact hr.trans (hn o r.state hr.placed)

theorem extends_onMatch {next : Value → Cursor → Run Cursor} (hr : c.Extends items r.state)
    (hn : ∀ v, Steady items (next v)) : c.Extends items (r.onMatch next).state := by
  apply extends_andThen hr
  rintro (v | _ | e) d hd
  · exact hn v d hd
  · exact hd.extends_self
  · exact hd.extends_self

theorem extends_orElse {next : Cursor → Run Cursor} (hr : c.Extends items r.state)
    (hn : Steady items next) : c.Extends items (r.orElse next).state := by
  apply extends_andThen hr
  rintro (v | _ | e) d hd
  · exact hd.extends_self
  · exact hn d hd
  · exact hd.extends_self

theorem extends_output {f : Value → Cursor → Except Fault Value} (hr : c.Extends items r.state) :
    c.Extends items (r.output f).state := by
  apply extends_onMatch hr
  intro v d hd
  rw [Run.state_ofExcept]
  exact hd.extends_self

theorem steady_repeatFrom (b : Bounds) (h : Steady items body) (budget : Nat)
    (outputs : List Value) (entries : List Entry) :
    Steady items (repeatFrom b body budget outputs entries) := by
  intro c hc
  induction budget generalizing c outputs entries with
  | zero =>
    unfold repeatFrom
    split <;> exact hc.extends_self
  | succ budget ih =>
    have hr := h c hc
    unfold repeatFrom
    dsimp only
    split
    · split
      · exact hr
      · exact hr.trans (ih _ _ _ hr.placed)
    · exact hr
    · exact hr

end Combinators

/-! ### Streams of a rule -/

namespace Forks

variable {items : Items} {s : Forks}

/-- A steady body run on a stream of an orderly tree moves that stream only. -/
theorem Orderly.runOn (hs : s.Orderly items) {body : Cursor → Run Cursor}
    (h : Steady items body) (i : Nat) : Change items s (s.runOn body i).state := by
  unfold Forks.runOn
  cases hb : s.get? i with
  | none => exact .stay
  | some b =>
    have later := h b.cursor (hs.placed i b hb)
    exact .move hb rfl later.start_eq later.placed fun _ => .inl

theorem orderly_handedIn {c : Cursor} (hc : c.Placed items) :
    (single c .handedIn).Orderly items :=
  orderly_single hc (by simp)

end Forks

/-! ### Parsers and rules -/

section Parsers

variable {items : Items} {call : Nat → Cursor → Run Cursor}

theorem steady_readItem : Steady items (Cursor.readItem items) := by
  intro c hc
  cases counted : items.isCountable with
  | true =>
    rw [Cursor.readItem_of_countable counted]
    exact hc.extends_read
  | false =>
    rw [Cursor.readItem_of_uncountable counted]
    exact hc.extends_self

theorem steady_readMember (group : Items) : Steady items (Cursor.readMember items group) := by
  intro c hc
  rw [Cursor.readMember, Run.state_reply]
  exact steady_readItem c hc

theorem steady_readLiteral (pattern : Items) (output : Value) :
    Steady items (Cursor.readLiteral items pattern output) := by
  intro c hc
  unfold Cursor.readLiteral
  split
  · exact hc.extends_self
  · exact Cursor.extends_of_readAll hc ‹_›
  · exact hc.extends_self

/-- Closing a function leads to a later state, if the function kept the streams that it found in
order. -/
theorem extends_closeFunction {c : Cursor} (hc : c.Placed items) {r : Run Forks}
    (ho : r.state.Orderly items) (hk : (Forks.single c.fork .handedIn).Keeps r.state) :
    c.Extends items (closeFunction c r).state := by
  obtain ⟨given, hgiven, -, hstart⟩ := hk 0 { cursor := c.fork, origin := .handedIn } rfl
  -- a span never ends before its start, so the stream is never before the place where it was given
  have later {d : Cursor} (placed : d.Placed items) (start : d.span.start = c.fork.span.start) :
      c.fork.Extends items d := by
    refine ⟨placed, start, ?_⟩
    have hle := placed.start_le
    rw [start] at hle
    rw [Cursor.position_fork, hc.sound]
    exact hle
  have outer : c.Extends items (given.outer c) := by
    unfold Branch.outer
    cases hm : given.merged with
    | none => exact hc.extends_self
    | some d =>
      obtain ⟨placed, start⟩ := ho.merged 0 given d hgiven hm
      exact .merge hc (later placed (start.trans hstart))
  unfold closeFunction
  rw [hgiven]
  split
  · rename_i o b _ hb
    obtain rfl : given = b := Option.some.inj hb
    rw [Run.state_withState]
    split
    · exact .merge hc (later (ho.placed 0 given hgiven) hstart)
    · exact outer
  · rename_i b hb _
    obtain rfl : given = b := Option.some.inj hb
    exact outer
  · cases ‹some given = none›

mutual

theorem Parser.steady (hcall : ∀ n, Steady items (call n)) :
    ∀ p : Parser, Steady items (p.runWith items call)
  | .literal pattern output => steady_attempt (steady_readLiteral pattern output)
  | .oneOf group => steady_attempt (steady_readMember group)
  | .item => steady_readItem
  | .empty => fun _ hc => hc.extends_self
  | .atEnd => fun c hc => by
    rw [Parser.runWith, Run.state_reply]
    exact hc.extends_self
  | .custom rule => fun c hc => by
    obtain ⟨orderly, keeps⟩ :=
      Rule.orderly hcall rule _ (Forks.orderly_handedIn hc.fork)
    exact extends_closeFunction hc orderly keeps
  | .seq first second => steady_attempt fun c hc =>
    extends_onMatch (Parser.steady hcall first c hc) fun _ d hd =>
      extends_output (Parser.steady hcall second d hd)
  | .choice first others => steady_attempt fun c hc =>
    extends_orElse (steady_attempt (Parser.steady hcall first) c hc)
      (Parser.steady_runFirst hcall others)
  | .optional parser => fun c hc =>
    extends_orElse (steady_attempt (Parser.steady hcall parser) c hc)
      fun _ hd => hd.extends_self
  | .absent parser => fun c hc => by
    rw [Parser.runWith, Run.state_reply]
    exact hc.extends_self
  | .times parser bounds => steady_attempt fun c hc =>
    steady_repeatFrom bounds (steady_attempt (Parser.steady hcall parser)) _ _ _ c hc
  | .map parser function => steady_attempt fun c hc =>
    extends_output (Parser.steady hcall parser c hc)
  | .withSpan parser => steady_attempt fun c hc =>
    extends_output (Parser.steady hcall parser c hc)
  | .lookingAt parser peek => steady_attempt fun c hc =>
    extends_onMatch (Parser.steady hcall parser c hc) fun _ d hd =>
      extends_output hd.extends_self
  | .seqBy parser choose => steady_attempt fun c hc =>
    extends_onMatch (Parser.steady hcall parser c hc) fun v d hd =>
      extends_output (Parser.steady_runChosen hcall (choose v) d hd)
  | .lookingAtBy parser choose => steady_attempt fun c hc =>
    extends_onMatch (Parser.steady hcall parser c hc) fun _ d hd =>
      extends_output hd.extends_self
  | .require parser error => steady_attempt fun c hc => by
    rw [Run.state_reply]
    exact Parser.steady hcall parser c hc
  | .reject parser error => steady_probe _
  | .forgive parser => fun c hc =>
    extends_andThen (steady_attempt (Parser.steady hcall parser) c hc) fun o d hd => by
      cases o <;> exact hd.extends_self
  | .traced parser title => fun c hc =>
    extends_andThen (Parser.steady hcall parser c hc) fun _ _ hd => hd.extends_self
  | .handle number => hcall number

theorem Parser.steady_runFirst (hcall : ∀ n, Steady items (call n)) :
    ∀ ps : List Parser, Steady items (Parser.runFirst items call ps)
  | [] => fun _ hc => hc.extends_self
  | p :: ps => fun c hc =>
    extends_orElse (steady_attempt (Parser.steady hcall p) c hc)
      (Parser.steady_runFirst hcall ps)

theorem Parser.steady_runChosen (hcall : ∀ n, Steady items (call n)) :
    ∀ r : Except Fault Parser, Steady items (Parser.runChosen items call r)
  | .error _ => fun _ hc => hc.extends_self
  | .ok p => Parser.steady hcall p

/-- A rule keeps the streams that it finds, and leaves them in order. -/
theorem Rule.orderly (hcall : ∀ n, Steady items (call n)) :
    ∀ (rule : Rule) (s : Forks), s.Orderly items →
      (rule.runWith items call s).state.Orderly items ∧
        s.Keeps (rule.runWith items call s).state
  | .finish _, s, hs => ⟨hs, .refl s⟩
  | .raise _, s, hs => ⟨hs, .refl s⟩
  | .act operation stream next, s, hs => by
    have change := (hs.perform operation stream).1
    obtain ⟨orderly, keeps⟩ := Rule.orderly hcall
      (next (s.perform items operation stream).1) _ (change.orderly hs)
    exact ⟨orderly, change.keeps.trans keeps⟩
  | .parse parser stream next, s, hs => by
    have change := hs.runOn (Parser.steady hcall parser) stream
    have rest := fun answer => Rule.orderly hcall (next answer) _ (change.orderly hs)
    rw [Rule.runWith]
    split
    · exact ⟨change.orderly hs, change.keeps⟩
    · exact ⟨(rest _).1, change.keeps.trans (rest _).2⟩
    · exact ⟨(rest _).1, change.keeps.trans (rest _).2⟩

end

end Parsers

/-- A call of a handle is steady, however deep it may go. -/
theorem Grammar.steady_call (g : Grammar) (items : Items) (depth handle : Nat) :
    Steady items (g.call items depth handle) := by
  induction depth generalizing handle with
  | zero => exact fun _ hc => hc.extends_self
  | succ depth ih =>
    intro c hc
    unfold Grammar.call
    split
    · exact hc.extends_self
    · exact steady_attempt (Parser.steady ih _) c hc

/-- Every run of a parser leads to a later state of its stream. -/
theorem Parser.extends_runWithin (g : Grammar) {items : Items} (depth : Nat) (p : Parser)
    {c : Cursor} (hc : c.Placed items) : c.Extends items (p.runWithin g items depth c).state :=
  p.steady (g.steady_call items depth) c hc

/-- The stream of a parser stays in order. -/
theorem Parser.placed_runWithin {items : Items} {c : Cursor} (p : Parser) (g : Grammar)
    (depth : Nat) (hc : c.Placed items) : (p.runWithin g items depth c).state.Placed items :=
  (p.extends_runWithin g depth hc).placed

/-- The span of a fork is empty, where its parent stands. -/
theorem Cursor.Placed.span_fork_eq {items : Items} {c : Cursor} (h : c.Placed items) :
    c.fork.span = .point c.position := by
  rw [Cursor.span_fork, ← h.sound]

/-- On a stream that is opened at the place, the span is that of what was read. -/
theorem Parser.span_runWithin {items : Items} {c : Cursor} {i : Nat} (p : Parser) (g : Grammar)
    (depth : Nat) (hc : c.Placed items) (hi : c.position = i) (hs : c.span = .point i) :
    (p.runWithin g items depth c).state.span =
      (Span.point i).upTo (p.runWithin g items depth c).state.position := by
  have later := p.extends_runWithin g depth hc
  have le := later.le
  refine Span.ext ?_ ?_
  · rw [later.start_eq, hs, Span.start_upTo]
  · rw [Span.stop_upTo (by rw [Span.start_point]; omega), later.placed.sound]

end Backtrack
