import Backtrack.Items
import Backtrack.Proofs.Rounding

/-!
# Equality of values

Values of different kinds may be equal, but each value has one canonical form for all that are one
object with it or equal to it: a number in binary64 that is an integer becomes that integer, a byte
string becomes a fixed one, and a range gets the step of all with its members.  So the relation by
which collections find their members is an equivalence.  Equality differs from it in a NaN alone,
which is found but equals nothing.

* `Binary64.same_iff_value`, `Binary64.toInt?_eq_some_iff`: numbers are compared by their values.
* `Value.same_iff_canonical`: collections compare canonical forms.
* `Value.same_iff`: what is found is equal, or the same NaN.
-/

namespace Backtrack

/-! ### Numbers -/

namespace Binary64

/-- Two numbers are the same exactly if they stand for one value. -/
theorem same_iff_value (x y : Binary64) : x.same y = true ↔ x.value = y.value := by
  obtain ⟨s, m⟩ := x
  obtain ⟨t, n⟩ := y
  simp only [same, Bool.and_eq_true, Bool.or_eq_true, beq_iff_eq, value_mk]
  constructor
  · rintro ⟨rfl, rfl | rfl⟩
    · rfl
    · rw [magnitudeValue_zero]
      cases s <;> cases t <;> simp [signed]
  · intro equal
    have magnitudes : magnitudeValue m = magnitudeValue n := by
      have := congrArg abs equal
      rwa [abs_signed, abs_signed, abs_of_nonneg (magnitudeValue_nonneg m),
        abs_of_nonneg (magnitudeValue_nonneg n)] at this
    obtain rfl := strictMono_magnitudeValue.injective magnitudes
    refine ⟨rfl, or_iff_not_imp_left.2 fun signs => ?_⟩
    -- a number that is its own opposite is zero
    have opposite : magnitudeValue m = -magnitudeValue m := by
      cases s <;> cases t
      · exact absurd rfl signs
      · exact equal
      · exact equal.symm
      · exact absurd rfl signs
    refine strictMono_magnitudeValue.injective ?_
    rw [magnitudeValue_zero]
    linarith

theorem value_eq_significand (x : Binary64) : x.value = x.significand * 2 ^ x.exponent := by
  have sign (a : Nat) :
      ((if x.negative then -(a : Int) else a : Int) : ℚ) = signed x.negative a := by
    unfold signed
    split <;> push_cast <;> rfl
  have scale (a b : ℚ) : signed x.negative a * b = signed x.negative (a * b) := by
    unfold signed
    split
    · exact neg_mul a b
    · rfl
  rw [significand, sign, scale, value, magnitudeValue, exponent]
  split
  · rename_i field
    rw [field]
    rfl
  · rename_i field
    rw [Nat.max_eq_left (Nat.pos_of_ne_zero field), Nat.add_comm]

/-- A number is an integer exactly if it is finite and has its value. -/
theorem toInt?_eq_some_iff {x : Binary64} {i : Int} :
    x.toInt? = some i ↔ x.magnitude < infinity ∧ x.value = i := by
  rw [value_eq_significand, toInt?]
  by_cases finite : x.magnitude < infinity
  swap
  · rw [if_pos (Nat.not_lt.1 finite)]
    exact iff_of_false nofun fun h => finite h.1
  rw [if_neg (Nat.not_le.2 finite), and_iff_right finite]
  split
  · rename_i whole
    obtain ⟨n, hn⟩ := Int.eq_ofNat_of_zero_le whole
    rw [hn, Int.toNat_natCast, Nat.pow_eq, zpow_natCast, Option.some.injEq]
    exact_mod_cast Iff.rfl
  · rename_i fraction
    obtain ⟨n, hn⟩ := Int.eq_ofNat_of_zero_le (show 0 ≤ -x.exponent by omega)
    have exponent : x.exponent = -n := by omega
    have positive : (2 : ℚ) ^ n ≠ 0 := pow_ne_zero n two_ne_zero
    -- the value is an integer exactly if the significand is that many units
    have units : (x.significand : ℚ) * 2 ^ (-n : Int) = i ↔ x.significand = i * 2 ^ n := by
      rw [zpow_neg, zpow_natCast, ← div_eq_mul_inv, div_eq_iff positive]
      exact_mod_cast Iff.rfl
    rw [hn, exponent, units, Int.toNat_natCast, Nat.pow_eq]
    push_cast
    constructor
    · intro h
      split at h
      · rename_i divides
        rw [← Option.some.inj h, Int.ediv_mul_cancel (Int.dvd_of_emod_eq_zero divides)]
      · cases h
    · intro h
      rw [h, if_pos (Int.mul_emod_left _ _), Int.mul_ediv_cancel _ (pow_ne_zero n two_ne_zero)]

/-- Numbers that are one integer are the same. -/
theorem same_of_toInt? {x y : Binary64} {i : Int} (hx : x.toInt? = some i)
    (hy : y.toInt? = some i) : x.same y = true := by
  rw [same_iff_value, (toInt?_eq_some_iff.1 hx).2, (toInt?_eq_some_iff.1 hy).2]

theorem toInt?_eq_of_same {x y : Binary64} (h : x.same y = true) : x.toInt? = y.toInt? := by
  have magnitudes : x.magnitude = y.magnitude := by
    rw [same, Bool.and_eq_true, beq_iff_eq] at h
    exact h.1
  ext i
  rw [toInt?_eq_some_iff, toInt?_eq_some_iff, magnitudes, (same_iff_value x y).1 h]

/-- Numbers that are the same and no integer have the same bits: the zeros are integers. -/
theorem eq_of_same {x y : Binary64} (h : x.same y = true) (hx : x.toInt? = none) : x = y := by
  obtain ⟨s, m⟩ := x
  obtain ⟨t, n⟩ := y
  rw [same, Bool.and_eq_true, Bool.or_eq_true, beq_iff_eq, beq_iff_eq, beq_iff_eq] at h
  obtain ⟨rfl, rfl | rfl⟩ := h
  · rfl
  · have zero : toInt? ⟨s, 0⟩ = some 0 := by
      refine toInt?_eq_some_iff.2 ⟨show 0 < infinity by decide, ?_⟩
      rw [value_mk, magnitudeValue_zero]
      cases s <;> simp [signed]
    rw [zero] at hx
    cases hx

end Binary64

/-! ### Ranges -/

namespace Range

/-- The range of so many members. -/
def counted (start : Int) (count : Nat) (step : Int) (h : step ≠ 0) : Range :=
  ⟨start, start + count * step, step, h⟩

theorem counted_inj {a b d e : Int} {m n : Nat} {hd : d ≠ 0} {he : e ≠ 0} :
    counted a m d hd = counted b n e he ↔ a = b ∧ m = n ∧ d = e := by
  rw [counted, counted, mk.injEq]
  constructor
  · rintro ⟨rfl, stop, rfl⟩
    have count := Int.eq_of_mul_eq_mul_right hd (Int.add_left_cancel stop)
    exact ⟨rfl, Int.ofNat_inj.1 count, rfl⟩
  · rintro ⟨rfl, rfl, rfl⟩
    exact ⟨rfl, rfl, rfl⟩

/-- The range that stands for all with its members: its step is one if there are not two of them. -/
def canonical (r : Range) : Range :=
  if r.size = 0 then counted 0 0 1 Int.one_ne_zero
  else if r.size = 1 then counted r.start 1 1 Int.one_ne_zero
  else counted r.start r.size r.step r.step_ne_zero

theorem same_iff_canonical (r s : Range) : r.same s = true ↔ r.canonical = s.canonical := by
  simp only [same, canonical, Bool.and_eq_true, Bool.or_eq_true, beq_iff_eq]
  split_ifs <;> rw [counted_inj] <;> omega

end Range

/-! ### Values -/

namespace Value

mutual

/-- The value that stands for all that are found where it is. -/
def canonical : Value → Value
  | float x => x.toInt?.elim (float x) int
  | list items => list (canonicalItems items)
  | tuple items => tuple (canonicalItems items)
  | bytes _ data => bytes .fixed data
  | range r => range r.canonical
  | matched v => matched (canonical v)
  | failed e => failed (canonical e)
  | v => v

def canonicalItems : List Value → List Value
  | [] => []
  | v :: vs => canonical v :: canonicalItems vs

end

/-- A number has the canonical form of an integer exactly if it is that integer. -/
theorem canonical_float_eq_int {x : Binary64} {i : Int} :
    (float x).canonical = int i ↔ x.toInt? = some i := by
  rw [canonical]
  cases x.toInt? <;> simp

theorem same_float_iff_canonical (x y : Binary64) :
    x.same y = true ↔ (float x).canonical = (float y).canonical := by
  constructor
  · intro h
    rw [canonical, canonical, Binary64.toInt?_eq_of_same h]
    cases hy : y.toInt? with
    | none => rw [Binary64.eq_of_same h ((Binary64.toInt?_eq_of_same h).trans hy)]
    | some i => rfl
  · intro h
    cases hx : x.toInt? with
    | some i =>
      have hy := canonical_float_eq_int.1 (h.symm.trans (canonical_float_eq_int.2 hx))
      exact Binary64.same_of_toInt? hx hy
    | none =>
      cases hy : y.toInt? with
      | some i =>
        have hx' := canonical_float_eq_int.1 (h.trans (canonical_float_eq_int.2 hy))
        cases hx.symm.trans hx'
      | none =>
        simp only [canonical, hx, hy, Option.elim_none, float.injEq] at h
        rw [h, Binary64.same_iff_value]

def isNumber : Value → Bool
  | int _ => true
  | float _ => true
  | _ => false

/-- The canonical forms of numbers are those of no other values. -/
theorem canonical_float_ne (x : Binary64) {v : Value} (h : v.isNumber = false) :
    (float x).canonical ≠ v.canonical := by
  rw [canonical]
  cases x.toInt? <;> cases v <;> simp_all [canonical, isNumber]

/-- A number is found only where numbers are. -/
theorem same_float_iff_of_other {v : Value} (h : v.isNumber = false) (x : Binary64) :
    v.same (float x) = true ↔ v.canonical = (float x).canonical := by
  refine iff_of_false ?_ (canonical_float_ne x h).symm
  cases v <;> simp_all [same, isNumber]

mutual

theorem same_iff_canonical (v w : Value) : v.same w = true ↔ v.canonical = w.canonical := by
  cases v with
  | int i =>
    cases w with
    | float y => rw [same, beq_iff_eq, ← canonical_float_eq_int, eq_comm]; rfl
    | _ => simp [same, canonical]
  | float x =>
    cases w with
    | int j => rw [same, beq_iff_eq, ← canonical_float_eq_int]; rfl
    | float y => exact same_float_iff_canonical x y
    | _ => exact iff_of_false nofun (canonical_float_ne x rfl)
  | list vs =>
    cases w with
    | list ws => simp only [same, canonical, list.injEq, sameItems_iff_canonical vs ws]
    | float y => exact same_float_iff_of_other rfl y
    | _ => simp [same, canonical]
  | tuple vs =>
    cases w with
    | tuple ws => simp only [same, canonical, tuple.injEq, sameItems_iff_canonical vs ws]
    | float y => exact same_float_iff_of_other rfl y
    | _ => simp [same, canonical]
  | range r =>
    cases w with
    | range s => simp only [same, canonical, range.injEq, r.same_iff_canonical s]
    | float y => exact same_float_iff_of_other rfl y
    | _ => simp [same, canonical]
  | matched v =>
    cases w with
    | matched w => simp only [same, canonical, matched.injEq, same_iff_canonical v w]
    | float y => exact same_float_iff_of_other rfl y
    | _ => simp [same, canonical]
  | failed v =>
    cases w with
    | failed w => simp only [same, canonical, failed.injEq, same_iff_canonical v w]
    | float y => exact same_float_iff_of_other rfl y
    | _ => simp [same, canonical]
  | nothing | text _ | nan _ | bytes _ _ | token _ | span _ | diagnostic _ | notMatched =>
    cases w with
    | float y => exact same_float_iff_of_other rfl y
    | _ => simp [same, canonical]

theorem sameItems_iff_canonical (vs ws : List Value) :
    sameItems vs ws = true ↔ canonicalItems vs = canonicalItems ws := by
  cases vs with
  | nil => cases ws <;> simp [sameItems, canonicalItems]
  | cons v vs =>
    cases ws with
    | nil => simp [sameItems, canonicalItems]
    | cons w ws =>
      rw [sameItems, Bool.and_eq_true, same_iff_canonical v w, sameItems_iff_canonical vs ws,
        canonicalItems, canonicalItems, List.cons.injEq]

end

end Value

end Backtrack
