import Backtrack.Proofs.Context
import Backtrack.Proofs.Simulation

/-!
# Parsers see what lies ahead, and nothing else

Two streams over different sources, of whatever depth and with whatever start, that stand at the
same place and have the same items ahead of them give a parser the same outcome or the same fault,
and move on by the same number of items.  What lies behind them does not matter, and no rule can
find it out either.

* `Comparison.ahead`: everything counts but where the spans of traces start.
* `run_sees_only_what_is_ahead`: the law.  Each of the two streams is first exchanged for a fork of
  itself (`Parser.contextFree`), and the forks are one and the same cursor over the two sources.
-/

namespace Backtrack

open Comparison

/-- Runs over two sequences of items that agree from somewhere on: whatever they end in counts, and
what they log up to where the spans of traces start. -/
def Comparison.ahead (items items' : Items) : Comparison where
  items := items
  items' := items'
  view := fun e => some e.ended
  rules := True
  ends := fun _ => True
  ends_answered := fun _ => trivial
  ends_raised := fun _ _ => trivial

variable {items items' : Items}

/-- Runs that are alike in this sense are parallel. -/
theorem Run.Alike.parallel {r r' : Run Cursor} (h : r.Alike (ahead items items').view r') :
    r.Parallel r' := by
  have log := h.log
  simp only [ahead, List.filterMap_eq_map'] at log
  exact ⟨h.ending.symm, by rw [h.state], log.symm⟩

/-- Two streams at the same place with the same items ahead give a parser the same outcome or the
same fault, whatever lies behind them and wherever their spans start.  They move on by as many
items, their spans keep their starts and grow by as much, and the logs differ at most in where the
spans of traces start.  The depth that is granted is the same, so this holds of `Parser.run` as
well.

The sequences are any that can be stored.  So if one is a range that is too long to be counted, the
other is one as well, and from neither an item is read. -/
theorem run_sees_only_what_is_ahead (g : Grammar) (p : Parser) {c d : Cursor}
    (hc : c.Placed items) (hd : d.Placed items') (hposition : c.position = d.position)
    (storable : items.IsStorable) (storable' : items'.IsStorable)
    (same : items.SameFrom items' c.position) :
    g.depth items = g.depth items' ∧
      ∀ depth,
        let r := p.runWithin g items depth c
        let r' := p.runWithin g items' depth d
        r.ending = r'.ending ∧
          r.state.position - c.position = r'.state.position - d.position ∧
          r.state.position = r'.state.position ∧
          (r.state.span.start = c.span.start ∧ r'.state.span.start = d.span.start) ∧
          r.state.span.stop - c.span.stop = r'.state.span.stop - d.span.stop ∧
          r.log.map Entry.ended = r'.log.map Entry.ended := by
  have hsize : items.size = items'.size := same.size_eq hc.le_size (hposition ▸ hd.le_size)
  have counted : items.isCountable = items'.isCountable := by
    rw [Bool.eq_iff_iff, storable.isCountable_iff, storable'.isCountable_iff, hsize]
  refine ⟨by rw [Grammar.depth, Grammar.depth, hsize], fun depth => ?_⟩
  intro r r'
  have shares : (ahead items items').Shares c.fork := ⟨hc.fork, ⟨hsize, counted⟩, same⟩
  -- each stream does as its fork does, and the two forks are the same
  have left := p.contextFree (g.contextFree_call items depth) (g.steady_call items depth)
    c c.fork hc hc.fork rfl
  have right := p.contextFree (g.contextFree_call items' depth) (g.steady_call items' depth)
    d.fork d hd.fork hd rfl
  rw [← Cursor.fork_congr hc hd hposition] at right
  have same : (ahead items items').Agrees (p.runWithin g items depth c.fork) fun _ =>
      p.runWithin g items' depth c.fork :=
    p.agrees_runWithin (k := ahead items items') trivial g depth c.fork shares
  obtain ⟨_, hdepth⟩ := same trivial
  have parallel : r.Parallel r' :=
    (left.trans (hdepth _ (Nat.le_refl _)).parallel).trans right
  have later : c.Extends items r.state := p.extends_runWithin g depth hc
  have later' : d.Extends items' r'.state := p.extends_runWithin g depth hd
  refine ⟨parallel.ending, by rw [parallel.position, hposition], parallel.position,
    ⟨later.start_eq, later'.start_eq⟩, ?_, parallel.log⟩
  rw [← later.placed.sound, ← later'.placed.sound, ← hc.sound, ← hd.sound, parallel.position,
    hposition]

/-- The root of one source after its first item, and a transaction opened at that place over another
source: they differ in the item behind them and in the spans that the trace logs. -/
theorem run_sees_only_what_is_ahead_of_fork :
    let items : Items := .ofText (.ofChars ['x', 'a', 'b'])
    let items' : Items := .ofText (.ofChars ['y', 'a', 'b'])
    let c : Cursor := Cursor.start.advance
    let d : Cursor := Cursor.start.advance.fork
    let p : Parser := .traced (.seq .item (.withSpan .item)) "pair"
    let r := p.runWithin .empty items 0 c
    let r' := p.runWithin .empty items' 0 d
    (c.Placed items ∧ d.Placed items' ∧ c.position = d.position ∧
        items.IsStorable ∧ items'.IsStorable ∧ items.SameFrom items' c.position) ∧
      r.ending = r'.ending ∧ r.state.position = r'.state.position ∧
      r.state.span.start = 0 ∧ r'.state.span.start = 1 ∧
      r.log.map Entry.ended = r'.log.map Entry.ended := by
  intro items items' c d p r r'
  have hc : c.Placed items := ⟨rfl, by decide⟩
  have hd : d.Placed items' := ⟨rfl, by decide⟩
  have same : items.SameFrom items' c.position := by
    rintro (_ | k) hk
    · cases hk
    · rfl
  have storable : items.IsStorable := by
    show 3 ≤ Items.maxCount
    decide
  have storable' : items'.IsStorable := by
    show 3 ≤ Items.maxCount
    decide
  obtain ⟨ending, -, position, ⟨start, start'⟩, -, log⟩ :=
    (run_sees_only_what_is_ahead .empty p hc hd rfl storable storable' same).2 0
  exact ⟨⟨hc, hd, rfl, storable, storable', same⟩, ending, position, start, start', log⟩

end Backtrack
