import Backtrack.Items

/-!
# Cursors

A cursor is the read head of one stream: the index of the next item and the span of what was read
since the stream was opened.  A fork starts where its parent stands with an empty span; merging it
moves the parent to where the fork stands and lets the parent's span end there.
-/

namespace Backtrack

/-- The state of one stream over a sequence of items. -/
structure Cursor where
  /-- The index of the next item. -/
  position : Nat
  /-- The span of the items read since the stream was opened. -/
  span : Span
  deriving DecidableEq

namespace Cursor

/-- The cursor of a new stream. -/
def start : Cursor := ⟨0, .point 0⟩

/-- How many items are left. -/
def left (items : Items) (c : Cursor) : Nat := items.size - c.position

/-- The number of items left, if the items are counted. -/
def remaining (items : Items) (c : Cursor) : Except Fault Nat :=
  items.count.map (· - c.position)

/-- Whether no item is left, if the items are counted. -/
def isAtEnd (items : Items) (c : Cursor) : Except Fault Bool :=
  items.count.map fun n => n ≤ c.position

/-- The cursor after one item. -/
def advance (c : Cursor) : Cursor := ⟨c.position + 1, c.span.grow⟩

/-- The next item and the cursor after it; at the end there is none and the cursor stays. -/
def read (items : Items) (c : Cursor) : Option Value × Cursor :=
  match items.get? c.position with
  | some v => (some v, c.advance)
  | none => (none, c)

/-- Reads the next item.  The end is found by counting, so items that are not counted are not read
either. -/
def next (items : Items) (c : Cursor) : Except Fault (Option Value × Cursor) :=
  items.count.map fun _ => c.read items

/-- The cursor of a fork. -/
def fork (c : Cursor) : Cursor := ⟨c.position, .point c.span.stop⟩

/-- The parent's cursor after the fork is merged into it. -/
def merge (parent fork : Cursor) : Cursor := ⟨fork.position, parent.span.upTo fork.span.stop⟩

@[simp] theorem position_advance (c : Cursor) : c.advance.position = c.position + 1 := rfl
@[simp] theorem span_advance (c : Cursor) : c.advance.span = c.span.grow := rfl
@[simp] theorem position_fork (c : Cursor) : c.fork.position = c.position := rfl
@[simp] theorem span_fork (c : Cursor) : c.fork.span = .point c.span.stop := rfl
@[simp] theorem position_merge (c d : Cursor) : (c.merge d).position = d.position := rfl
@[simp] theorem span_merge (c d : Cursor) : (c.merge d).span = c.span.upTo d.span.stop := rfl

/-- A cursor's span ends where the cursor stands. -/
def Sound (c : Cursor) : Prop := c.position = c.span.stop

theorem sound_start : start.Sound := rfl

theorem Sound.advance {c : Cursor} (h : c.Sound) : c.advance.Sound := congrArg (· + 1) h

theorem Sound.fork {c : Cursor} (h : c.Sound) : c.fork.Sound := h

theorem Sound.merge {c d : Cursor} (hd : d.Sound) (h : c.span.start ≤ d.span.stop) :
    (c.merge d).Sound := by
  rw [Sound, span_merge, Span.stop_upTo h]
  exact hd

/-- A cursor over `items` is placed if its span ends where it stands and it stands within the
input. -/
structure Placed (items : Items) (c : Cursor) : Prop where
  sound : c.Sound
  le_size : c.position ≤ items.size

theorem placed_start (items : Items) : start.Placed items := ⟨sound_start, Nat.zero_le _⟩

theorem Placed.start_le {items : Items} {c : Cursor} (h : c.Placed items) :
    c.span.start ≤ c.position :=
  h.sound.symm ▸ c.span.start_le_stop

theorem Placed.fork {items : Items} {c : Cursor} (h : c.Placed items) : c.fork.Placed items :=
  ⟨h.sound.fork, h.le_size⟩

theorem Placed.merge {items : Items} {c d : Cursor} (hd : d.Placed items)
    (h : c.span.start ≤ d.span.stop) : (c.merge d).Placed items :=
  ⟨hd.sound.merge h, hd.le_size⟩

theorem read_of_some {items : Items} {c : Cursor} {v : Value}
    (h : items.get? c.position = some v) : c.read items = (some v, c.advance) := by
  simp [read, h]

theorem read_of_none {items : Items} {c : Cursor} (h : items.get? c.position = none) :
    c.read items = (none, c) := by
  simp [read, h]

theorem next_of_countable {items : Items} (h : items.isCountable = true) (c : Cursor) :
    c.next items = .ok (c.read items) := by
  rw [next, Items.count_of_countable h]
  rfl

theorem next_of_uncountable {items : Items} (h : items.isCountable = false) (c : Cursor) :
    c.next items = .error .uncountable := by
  rw [next, Items.count_of_uncountable h]
  rfl

theorem remaining_of_countable {items : Items} (h : items.isCountable = true) (c : Cursor) :
    c.remaining items = .ok (c.left items) := by
  rw [remaining, Items.count_of_countable h]
  rfl

theorem remaining_of_uncountable {items : Items} (h : items.isCountable = false) (c : Cursor) :
    c.remaining items = .error .uncountable := by
  rw [remaining, Items.count_of_uncountable h]
  rfl

theorem isAtEnd_of_countable {items : Items} (h : items.isCountable = true) (c : Cursor) :
    c.isAtEnd items = .ok (decide (items.size ≤ c.position)) := by
  rw [isAtEnd, Items.count_of_countable h]
  rfl

theorem isAtEnd_of_uncountable {items : Items} (h : items.isCountable = false) (c : Cursor) :
    c.isAtEnd items = .error .uncountable := by
  rw [isAtEnd, Items.count_of_uncountable h]
  rfl

theorem Placed.read {items : Items} {c : Cursor} (h : c.Placed items) :
    (c.read items).2.Placed items := by
  cases hv : items.get? c.position with
  | none =>
    rw [read_of_none hv]
    exact h
  | some v =>
    rw [read_of_some hv]
    have hlt : c.position < items.size := Items.isSome_get?_iff.1 (by simp [hv])
    exact ⟨h.sound.advance, hlt⟩

theorem start_read (items : Items) (c : Cursor) :
    (c.read items).2.span.start = c.span.start := by
  cases hv : items.get? c.position with
  | none => rw [read_of_none hv]
  | some v => rw [read_of_some hv]; rfl

/-- The cursor after reading `pattern` from its index `k` on, `count` items at most to go: none if
an item differs or the input ends. -/
def readAll (items pattern : Items) (c : Cursor) (k : Nat) : Nat → Except Fault (Option Cursor)
  | 0 => .ok (some c)
  | count + 1 => do
    match ← c.next items, pattern.get? k with
    | (some v, c'), some expected =>
      if v == expected then readAll items pattern c' (k + 1) count else return none
    | _, _ => return none

theorem readAll_of_uncountable {items : Items} (h : items.isCountable = false) (pattern : Items)
    (c : Cursor) (k count : Nat) :
    c.readAll items pattern k (count + 1) = .error .uncountable := by
  rw [readAll, next_of_uncountable h]
  rfl

theorem readAll_succ {items : Items} (h : items.isCountable = true) (pattern : Items) (c : Cursor)
    (k count : Nat) :
    c.readAll items pattern k (count + 1) =
      match c.read items, pattern.get? k with
      | (some v, c'), some expected =>
        if v == expected then c'.readAll items pattern (k + 1) count else .ok none
      | _, _ => .ok none := by
  rw [readAll, next_of_countable h]
  rfl

/-- A literal is not read only from items that are not counted. -/
theorem uncountable_of_readAll {items pattern : Items} {c : Cursor} {k count : Nat} {f : Fault}
    (h : c.readAll items pattern k count = .error f) :
    f = .uncountable ∧ items.isCountable = false := by
  induction count generalizing k c with
  | zero => cases h
  | succ count ih =>
    cases counted : items.isCountable with
    | false =>
      rw [readAll_of_uncountable counted] at h
      cases h
      exact ⟨rfl, rfl⟩
    | true =>
      rw [readAll_succ counted] at h
      split at h
      · split at h
        · exact absurd ((ih h).2.symm.trans counted) (by decide)
        · cases h
      · cases h

end Cursor

end Backtrack
