import Backtrack.Proofs.Repetition

/-!
# Spans tile the input

The span that goes with an output begins where the parser was tried and ends where it left the
stream, whatever was read and put back on the way: forks are merged by their ends, and a stream that
moves on never loses its start.  So the spans of a repetition lie end to end.

* `Span.Tile`: spans that lie end to end.
* `Parser.ending_withSpan_of_matched`, `Parser.matched_of_withSpan`: a parser with its span.
* `Streak.tile`: the spans of matches in a row, by induction on the streak.
* `spans_tile_input`: the law.
-/

namespace Backtrack

/-! ### Spans end to end -/

namespace Span

/-- The spans lie end to end from `i` up to `j`. -/
def Tile : Nat → List Span → Nat → Prop
  | i, [], j => i = j
  | i, s :: rest, j => s.start = i ∧ Tile s.stop rest j

theorem Tile.le {i j : Nat} {spans : List Span} (h : Tile i spans j) : i ≤ j := by
  induction spans generalizing i with
  | nil => exact Nat.le_of_eq h
  | cons s rest ih =>
    obtain ⟨rfl, h⟩ := h
    exact Nat.le_trans s.start_le_stop (ih h)

/-- What the spans cut out of a list is, put together, what lies between their ends. -/
theorem Tile.flatten_cut {α : Type} {i j : Nat} {spans : List Span} (h : Tile i spans j)
    (l : List α) : (spans.map (·.cut l)).flatten = (l.take j).drop i := by
  induction spans generalizing i with
  | nil =>
    obtain rfl : i = j := h
    simp
  | cons s rest ih =>
    obtain ⟨rfl, h⟩ := h
    have hle := s.start_le_stop
    have hj := h.le
    have split : j - s.start = (s.stop - s.start) + (j - s.stop) := by omega
    have behind : s.start + (s.stop - s.start) = s.stop := by omega
    rw [List.map_cons, List.flatten_cons, ih h, Span.cut, List.drop_take, List.drop_take,
      List.drop_take, split, List.take_add, List.drop_drop, behind]

end Span

/-! ### A parser with its span -/

section Parsers

variable {g : Grammar} {items : Items} {depth : Nat} {p : Parser} {c : Cursor}

theorem Run.output_of_matched {σ : Type} {r : Run σ} {v : Value}
    (h : r.ending = .answered (.matched v)) (f : Value → σ → Except Fault Value) :
    r.output f = (ofExcept ((f v r.state).map .matched) r.state).after r.log := by
  rw [Run.output, Run.onMatch, Run.andThen_of_answered h]

theorem Parser.runWithin_withSpan (c : Cursor) :
    (Parser.withSpan p).runWithin g items depth c =
      attempt (fun tx => (p.runWithin g items depth tx).output fun v tx =>
        .ok (.tuple [.span tx.span, v])) c := rfl

/-- The parser on a fork ends as it does on the stream itself, and at the same place. -/
theorem Parser.parallel_fork (g : Grammar) (depth : Nat) (p : Parser) (hc : c.Placed items) :
    (p.runWithin g items depth c.fork).Parallel (p.runWithin g items depth c) :=
  p.contextFree (g.contextFree_call items depth) (g.steady_call items depth) c.fork c hc.fork hc rfl

/-- The output goes with the span from where the parser was tried up to where it stands, and the
stream is left as the parser leaves it. -/
theorem Parser.ending_withSpan_of_matched (hc : c.Placed items) {v : Value}
    (h : (p.runWithin g items depth c).ending = .answered (.matched v)) :
    let d := (p.runWithin g items depth c).state
    ∃ hle : c.position ≤ d.position,
      ((Parser.withSpan p).runWithin g items depth c).ending =
        .answered (.matched (.tuple [.span ⟨c.position, d.position, hle⟩, v])) ∧
      ((Parser.withSpan p).runWithin g items depth c).state = d := by
  intro d
  have parallel := p.parallel_fork g depth hc
  have later := p.extends_runWithin g depth hc
  have inner := p.extends_runWithin g depth hc.fork
  have matched : (p.runWithin g items depth c.fork).ending = .answered (.matched v) :=
    parallel.ending.trans h
  have span : (p.runWithin g items depth c.fork).state.span = ⟨c.position, d.position, later.le⟩ := by
    refine Span.ext (inner.start_eq.trans hc.sound.symm) ?_
    rw [← inner.placed.sound]
    exact parallel.position
  have body : ((p.runWithin g items depth c.fork).output fun v tx =>
        .ok (.tuple [.span tx.span, v])).ending =
      .answered (.matched (.tuple [.span ⟨c.position, d.position, later.le⟩, v])) := by
    rw [Run.output_of_matched matched, span]
    rfl
  refine ⟨later.le, ?_, ?_⟩
  · rw [runWithin_withSpan, ending_attempt, body]
  · rw [runWithin_withSpan, state_attempt_of_matched body, Run.output_of_matched matched]
    exact Cursor.merge_eq_of_extends later inner.placed parallel.position

/-- There is a span only where the parser matches. -/
theorem Parser.matched_of_withSpan (hc : c.Placed items) {w : Value}
    (h : ((Parser.withSpan p).runWithin g items depth c).ending = .answered (.matched w)) :
    ∃ v, (p.runWithin g items depth c).ending = .answered (.matched v) := by
  rw [← (p.parallel_fork g depth hc).ending]
  rw [runWithin_withSpan, ending_attempt] at h
  cases hr : (p.runWithin g items depth c.fork).ending with
  | exhausted =>
    rw [Run.output, Run.onMatch, Run.andThen_of_exhausted hr, hr] at h
    cases h
  | raised f =>
    rw [Run.output, Run.onMatch, Run.andThen_of_raised hr, hr] at h
    cases h
  | answered o =>
    rw [Run.output, Run.onMatch, Run.andThen_of_answered hr] at h
    cases o with
    | matched v => exact ⟨v, rfl⟩
    | notMatched => cases h
    | failed e => cases h

/-- The spans of matches in a row lie end to end. -/
theorem Streak.tile {i j : Nat} {pieces : List (Nat × Value)}
    (h : Streak (fun n => (Parser.withSpan p).runWithin g items depth (.point n)) i pieces j)
    (hi : i ≤ items.size) :
    ∃ parts : List (Span × Value),
      pieces.map Prod.snd = parts.map (fun part => .tuple [.span part.1, part.2]) ∧
      Span.Tile i (parts.map Prod.fst) j := by
  induction h with
  | nil i => exact ⟨[], rfl, rfl⟩
  | @cons i j w pieces first _ ih =>
    have hc := Cursor.placed_point hi
    obtain ⟨v, hv⟩ := Parser.matched_of_withSpan hc first
    obtain ⟨hle, ending, state⟩ := Parser.ending_withSpan_of_matched hc hv
    have later := p.extends_runWithin g depth hc
    rw [state] at ih
    obtain ⟨parts, outputs, tile⟩ := ih later.placed.le_size
    rw [ending] at first
    obtain rfl : Value.tuple [.span ⟨i, _, hle⟩, v] = w := by simpa using first
    exact ⟨(⟨i, _, hle⟩, v) :: parts, by simp [outputs], rfl, tile⟩

/-- A parser that matches gives its output together with the span from where it was tried up to
where it stands, and leaves the stream as it would alone.  So if a repetition of it matches,
whatever the bounds, the spans of its outputs lie end to end from where the stream stood up to where
it stands; and of a text they cut out, put together, just the part in between. -/
theorem spans_tile_input (g : Grammar) (p : Parser) (hc : c.Placed items) (depth : Nat) :
    (∀ v, (p.runWithin g items depth c).ending = .answered (.matched v) →
      let d := (p.runWithin g items depth c).state
      ∃ hle : c.position ≤ d.position,
        ((Parser.withSpan p).runWithin g items depth c).ending =
          .answered (.matched (.tuple [.span ⟨c.position, d.position, hle⟩, v])) ∧
        ((Parser.withSpan p).runWithin g items depth c).state = d) ∧
    ∀ b w,
      let r := (Parser.times (.withSpan p) b).runWithin g items depth c
      r.ending = .answered (.matched w) →
      ∃ parts : List (Span × Value),
        w = .list (parts.map fun part => .tuple [.span part.1, part.2]) ∧
        Span.Tile c.position (parts.map Prod.fst) r.state.position ∧
        ∀ t : Text, items = .ofText t →
          (parts.map fun part => part.1.cut t).flatten =
            (t.take r.state.position).drop c.position := by
  refine ⟨fun v hv => Parser.ending_withSpan_of_matched hc hv, fun b w => ?_⟩
  intro r hw
  obtain ⟨pieces, rfl, streak⟩ := Parser.streak_of_times_matched g depth (.withSpan p) b hc hw
  obtain ⟨parts, outputs, tile⟩ := streak.tile hc.le_size
  refine ⟨parts, by rw [outputs], tile, fun t _ => ?_⟩
  have cut := tile.flatten_cut t
  rw [List.map_map] at cut
  exact cut

end Parsers

/-- An `a` and a `b`, or an `a` alone. -/
def Parser.letterPair : Parser :=
  .choice (.seq .letterA (.literal (.ofText (.ofChars ['b'])) .nothing)) [.letterA]

/-- An `x`, an `a`, and an `a` and a `b`. -/
def Text.letterPairs : Text := .ofChars ['x', 'a', 'a', 'b']

/-- A pair at the second item of the text. -/
def Run.letterPair : Run Cursor :=
  Parser.letterPair.runWithin .empty (.ofText Text.letterPairs) 0 Cursor.start.advance

/-- The pairs of the text from its second item on, each with its span. -/
def Run.letterPairs : Run Cursor :=
  (Parser.times (.withSpan .letterPair) (.atLeast 0)).runWithin .empty (.ofText Text.letterPairs) 0
    Cursor.start.advance

theorem Run.ending_letterPair : Run.letterPair.ending = .answered (.matched .nothing) := rfl

theorem Run.position_letterPair : Run.letterPair.state.position = 2 := rfl

theorem Run.ending_letterPairs : Run.letterPairs.ending =
    .answered (.matched (.list [.tuple [.span ⟨1, 2, by decide⟩, .nothing],
      .tuple [.span ⟨2, 4, by decide⟩, .tuple [.nothing, .nothing]]])) := rfl

theorem Run.position_letterPairs : Run.letterPairs.state.position = 4 := rfl

/-- From the second item on, a pair is begun and put back, an `a` is taken, and then a pair. -/
theorem spans_tile_input_after_putting_back :
    Cursor.start.advance.Placed (.ofText Text.letterPairs) ∧
      Run.letterPair.ending = .answered (.matched .nothing) ∧
      (∃ s : Span, s.start = 1 ∧ s.stop = 2 ∧
        ((Parser.withSpan .letterPair).runWithin .empty (.ofText Text.letterPairs) 0
          Cursor.start.advance).ending = .answered (.matched (.tuple [.span s, .nothing]))) ∧
      Run.letterPairs.ending =
        .answered (.matched (.list [.tuple [.span ⟨1, 2, by decide⟩, .nothing],
          .tuple [.span ⟨2, 4, by decide⟩, .tuple [.nothing, .nothing]]])) ∧
      ∃ parts : List (Span × Value),
        [.tuple [.span ⟨1, 2, by decide⟩, .nothing],
          .tuple [.span ⟨2, 4, by decide⟩, .tuple [.nothing, .nothing]]] =
          parts.map (fun part => Value.tuple [.span part.1, part.2]) ∧
        Span.Tile 1 (parts.map Prod.fst) 4 ∧
        (parts.map fun part => part.1.cut Text.letterPairs).flatten =
          Text.ofChars ['a', 'a', 'b'] := by
  have placed : Cursor.start.advance.Placed (.ofText Text.letterPairs) := ⟨rfl, by decide⟩
  obtain ⟨one, all⟩ := spans_tile_input .empty .letterPair placed 0
  obtain ⟨_, spanned, -⟩ := one _ Run.ending_letterPair
  obtain ⟨parts, outputs, tile, cut⟩ := all (.atLeast 0) _ Run.ending_letterPairs
  have between := cut Text.letterPairs rfl
  rw [show (Parser.runWithin _ _ _ _ _).state.position = 4 from Run.position_letterPairs]
    at tile between
  exact ⟨placed, Run.ending_letterPair, ⟨_, rfl, Run.position_letterPair, spanned⟩,
    Run.ending_letterPairs, parts, Value.list.inj outputs, tile, between⟩

end Backtrack
