import Backtrack.Fault

/-!
# Checked span construction

A span built from any two integers, and the spans around a given one.  Growth may be negative;
whatever leaves no valid span is a fault that names the two offsets asked for.
-/

namespace Backtrack.Span

/-- The span between two integers, which must be in order and not negative. -/
def make (start stop : Int) : Except Fault Span :=
  if h : 0 ≤ start ∧ start ≤ stop then
    .ok ⟨start.toNat, stop.toNat, by omega⟩
  else .error (.invalidSpan start stop)

/-- The span grown to cover `more` items before it. -/
def growBefore (s : Span) (more : Int) : Except Fault Span := make (s.start - more) s.stop

/-- The span grown to cover `more` items after it. -/
def growAfter (s : Span) (more : Int) : Except Fault Span := make s.start (s.stop + more)

/-- The span of the given length that ends where this one starts. -/
def before (s : Span) (length : Int) : Except Fault Span := make (s.start - length) s.start

/-- The span of the given length that starts where this one ends. -/
def after (s : Span) (length : Int) : Except Fault Span := make s.stop (s.stop + length)

/-- The range of the offsets that a span covers. -/
def toRange (s : Span) : Range := ⟨s.start, s.stop, 1, by decide⟩

/-- The span of a range's bounds, its step aside. -/
def ofRange (r : Range) : Except Fault Span := make r.start r.stop

theorem make_eq_ok_iff {start stop : Int} {s : Span} :
    make start stop = .ok s ↔ (s.start : Int) = start ∧ (s.stop : Int) = stop := by
  unfold make
  constructor
  · intro h
    split at h
    · cases h
      dsimp only
      omega
    · cases h
  · intro h
    have := s.start_le_stop
    rw [dif_pos (by omega)]
    congr 1
    exact Span.ext (by dsimp only; omega) (by dsimp only; omega)

end Backtrack.Span
