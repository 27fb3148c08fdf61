/-!
# Arithmetic ranges

A range is given by a start, a stop and a non-zero step: the integers `start`, `start + step`, …
that lie before `stop` in the direction of the step.  Nothing is ever listed: size, indexing,
membership and slices are arithmetic, so a range may be of any length.
-/

namespace Backtrack

/-- The integers from `start` towards `stop`, `step` apart. -/
structure Range where
  start : Int
  stop : Int
  step : Int
  step_ne_zero : step ≠ 0

namespace Range

/-- The number of members. -/
def size (r : Range) : Nat :=
  if 0 < r.step then
    if r.start < r.stop then ((r.stop - r.start - 1) / r.step + 1).toNat else 0
  else
    if r.stop < r.start then ((r.start - r.stop - 1) / (-r.step) + 1).toNat else 0

/-- The member with index `k`. -/
def get? (r : Range) (k : Nat) : Option Int :=
  if k < r.size then some (r.start + k * r.step) else none

/-- Whether `i` is a member. -/
def contains (r : Range) (i : Int) : Bool :=
  (i - r.start) % r.step == 0 &&
    (if 0 < r.step then decide (r.start ≤ i ∧ i < r.stop) else decide (r.stop < i ∧ i ≤ r.start))

/-- The members from index `lo` up to but excluding index `hi`, both clipped to the size. -/
def slice (r : Range) (lo hi : Nat) : Range where
  start := r.start + (min lo r.size : Nat) * r.step
  stop := r.start + (min hi r.size : Nat) * r.step
  step := r.step
  step_ne_zero := r.step_ne_zero

/-- Whether two ranges have the same members in the same order. -/
def same (r s : Range) : Bool :=
  r.size == s.size &&
    (r.size == 0 || (r.start == s.start && (r.size == 1 || r.step == s.step)))

/-- The written form; a step of one is left out. -/
def written (r : Range) : String :=
  if r.step = 1 then s!"range({r.start}, {r.stop})"
  else s!"range({r.start}, {r.stop}, {r.step})"

theorem get?_eq_none_iff {r : Range} {k : Nat} : r.get? k = none ↔ r.size ≤ k := by
  simp [get?]

end Range

/-- A range with no end. -/
structure Progression where
  start : Int
  step : Int

namespace Progression

/-- The member with index `k`. -/
def get (p : Progression) (k : Nat) : Int := p.start + k * p.step

/-- The first `count` members. -/
def take (p : Progression) (count : Nat) : List Int := (List.range count).map p.get

end Progression

end Backtrack
