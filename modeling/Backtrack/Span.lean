import Backtrack.Text

/-!
# Spans

A span is a half-open interval of offsets into a sequence of items.  Its order is part of the type,
so a span built from offsets that may be out of order goes through a check
(`Backtrack.Span.Adjust`).
-/

namespace Backtrack

/-- The offsets from `start` up to but excluding `stop`. -/
structure Span where
  start : Nat
  stop : Nat
  start_le_stop : start ≤ stop
  deriving DecidableEq

namespace Span

/-- The empty span at an offset. -/
def point (n : Nat) : Span := ⟨n, n, Nat.le_refl n⟩

/-- The span with the same start that ends at `stop`, or at its own start if `stop` lies before. -/
def upTo (s : Span) (stop : Nat) : Span := ⟨s.start, max s.start stop, Nat.le_max_left ..⟩

/-- The span that covers one more item at its end. -/
def grow (s : Span) : Span := ⟨s.start, s.stop + 1, Nat.le_succ_of_le s.start_le_stop⟩

def length (s : Span) : Nat := s.stop - s.start

def isEmpty (s : Span) : Bool := s.start == s.stop

/-- The short form, such as `@2..5`. -/
def brief (s : Span) : String := s!"@{s.start}..{s.stop}"

/-- The full written form. -/
def written (s : Span) : String := s!"Span(start={s.start}, end={s.stop})"

/-- The part of a list that a span covers, its offsets clipped to the length. -/
def cut {α : Type} (s : Span) (l : List α) : List α := (l.take s.stop).drop s.start

@[ext] theorem ext {s t : Span} (h₁ : s.start = t.start) (h₂ : s.stop = t.stop) : s = t := by
  cases s; cases t; cases h₁; cases h₂; rfl

@[simp] theorem start_point (n : Nat) : (Span.point n).start = n := rfl
@[simp] theorem stop_point (n : Nat) : (Span.point n).stop = n := rfl
@[simp] theorem start_upTo (s : Span) (n : Nat) : (s.upTo n).start = s.start := rfl
@[simp] theorem start_grow (s : Span) : s.grow.start = s.start := rfl
@[simp] theorem stop_grow (s : Span) : s.grow.stop = s.stop + 1 := rfl

theorem stop_upTo {s : Span} {n : Nat} (h : s.start ≤ n) : (s.upTo n).stop = n :=
  Nat.max_eq_right h

end Span

/-- A message located by a span. -/
structure Diagnostic where
  span : Span
  message : Option Text
  deriving DecidableEq

namespace Span

/-- A diagnostic located at this span. -/
def diagnostic (s : Span) (message : Option Text) : Diagnostic := ⟨s, message⟩

end Span

end Backtrack
