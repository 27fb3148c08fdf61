import Mathlib.Algebra.Order.Field.Basic
import Mathlib.Algebra.Order.Field.Power
import Mathlib.Tactic.Linarith
import Mathlib.Tactic.Ring
import Mathlib.Tactic.NormNum
import Mathlib.Data.Rat.Cast.Order
import Backtrack.Decimal.Binary64

/-!
# Correct rounding

Bit patterns of magnitudes count the values that binary64 has, in order, and would go on doing so
past the greatest finite one.  A ratio between two neighbours of that row is rounded to the nearer
one, the even one of two, and everything from infinity on becomes infinity.

* `Binary64.magnitudeValue`, `Binary64.value`: the number that a pattern stands for.
* `Binary64.strictMono_magnitudeValue`: patterns order the magnitudes.
* `Binary64.Rounds`: rounding in the row without an end.
* `Binary64.IsRounding`: rounding to nearest with ties to even, with overflow.
* `Binary64.isRounding_ofDecimal`: decimals are rounded so.
-/

namespace Backtrack

namespace Binary64

/-! ### Values of patterns -/

/-- The number with the pattern: a subnormal one, or one with a leading bit. -/
def magnitudeValue (m : Nat) : ℚ :=
  if m / leadingBit = 0 then (m % leadingBit : Nat) * 2 ^ (-1074 : Int)
  else (leadingBit + m % leadingBit : Nat) * 2 ^ ((m / leadingBit : Nat) - 1075 : Int)

/-- The number with a sign. -/
def signed (negative : Bool) (a : ℚ) : ℚ := if negative then -a else a

/-- The number itself; infinity stands for the magnitude that would follow the greatest finite
one. -/
def value (x : Binary64) : ℚ := signed x.negative (magnitudeValue x.magnitude)

theorem leadingBit_pos : 0 < leadingBit := by decide

theorem magnitudeValue_subnormal {n : Nat} (hn : n < leadingBit) :
    magnitudeValue n = n * 2 ^ (-1074 : Int) := by
  rw [magnitudeValue, if_pos (Nat.div_eq_of_lt hn), Nat.mod_eq_of_lt hn]

theorem magnitudeValue_normal {e k : Nat} (hk : k < leadingBit) :
    magnitudeValue ((e + 1) * leadingBit + k) = (leadingBit + k : Nat) * 2 ^ (e - 1074 : Int) := by
  have field : ((e + 1) * leadingBit + k) / leadingBit = e + 1 := by
    rw [Nat.mul_comm, Nat.mul_add_div leadingBit_pos, Nat.div_eq_of_lt hk, Nat.add_zero]
  have fraction : ((e + 1) * leadingBit + k) % leadingBit = k := by
    rw [Nat.mul_comm, Nat.mul_add_mod, Nat.mod_eq_of_lt hk]
  have exponent : ((e + 1 : Nat) - 1075 : Int) = e - 1074 := by omega
  rw [magnitudeValue, field, fraction, if_neg (Nat.succ_ne_zero e), exponent]

/-- Within a binade, the first number of the next one included, patterns count by the spacing. -/
theorem magnitudeValue_add {e n : Nat} (hn : n ≤ 2 * leadingBit) (he : e = 0 ∨ leadingBit ≤ n) :
    magnitudeValue (e * leadingBit + n) = n * 2 ^ (e - 1074 : Int) := by
  rcases Nat.lt_or_ge n leadingBit with low | high
  · obtain rfl : e = 0 := by omega
    rw [Nat.zero_mul, Nat.zero_add, magnitudeValue_subnormal low]
    rfl
  · obtain ⟨k, rfl⟩ := Nat.exists_eq_add_of_le high
    rw [← Nat.add_assoc, ← Nat.succ_mul]
    rcases Nat.lt_or_eq_of_le (show k ≤ leadingBit by omega) with low | rfl
    · exact magnitudeValue_normal low
    · have exponent : ((e + 1 : Nat) - 1074 : Int) = (e - 1074 : Int) + 1 := by omega
      have next := magnitudeValue_normal (e := e + 1) leadingBit_pos
      rw [Nat.add_zero, Nat.add_zero, exponent, zpow_add_one₀ two_ne_zero] at next
      rw [← Nat.succ_mul, next]
      push_cast
      ring

theorem exists_binade (m : Nat) :
    ∃ e n, m = e * leadingBit + n ∧ n < 2 * leadingBit ∧ (e = 0 ∨ leadingBit ≤ n) := by
  have split := Nat.div_add_mod' m leadingBit
  have below := Nat.mod_lt m leadingBit_pos
  cases hm : m / leadingBit with
  | zero =>
    rw [hm] at split
    exact ⟨0, m % leadingBit, by omega, by omega, .inl rfl⟩
  | succ e =>
    rw [hm, Nat.succ_mul] at split
    exact ⟨e, leadingBit + m % leadingBit, by omega, by omega, .inr (Nat.le_add_right _ _)⟩

/-- Patterns order the magnitudes. -/
theorem strictMono_magnitudeValue : StrictMono magnitudeValue := by
  refine strictMono_nat_of_lt_succ fun m => ?_
  obtain ⟨e, n, rfl, hn, he⟩ := exists_binade m
  rw [Nat.add_assoc, magnitudeValue_add (Nat.le_of_lt hn) he,
    magnitudeValue_add hn (he.imp_right Nat.le_succ_of_le)]
  have spacing : (0 : ℚ) < 2 ^ (e - 1074 : Int) := zpow_pos two_pos _
  exact mul_lt_mul_of_pos_right (Nat.cast_lt.2 (Nat.lt_succ_self n)) spacing

theorem magnitudeValue_zero : magnitudeValue 0 = 0 := by
  rw [magnitudeValue_subnormal leadingBit_pos, Nat.cast_zero, zero_mul]

theorem magnitudeValue_nonneg (m : Nat) : 0 ≤ magnitudeValue m := by
  rw [← magnitudeValue_zero]
  exact strictMono_magnitudeValue.monotone (Nat.zero_le m)

/-! ### Rounding between neighbours -/

/-- Of `k` and the number after it: the first where `a` is below `b`, the second where it is above,
and the even one where they are equal. -/
def HalfEven (a b : ℚ) (k m : Nat) : Prop :=
  (m = k ∧ (a < b ∨ a = b ∧ k % 2 = 0)) ∨ (m = k + 1 ∧ (b < a ∨ a = b ∧ k % 2 = 1))

/-- The pattern of a neighbour of `a`: the nearer one, of two that are as near the even one.  There
is no greatest pattern here. -/
structure Rounds (a : ℚ) (below m : Nat) : Prop where
  le : magnitudeValue below ≤ a
  lt : a < magnitudeValue (below + 1)
  nearer : HalfEven (2 * a) (magnitudeValue below + magnitudeValue (below + 1)) below m

namespace Rounds

variable {a : ℚ} {below m : Nat}

theorem zero (h0 : 0 ≤ a) (h : 2 * a < magnitudeValue 1) : Rounds a 0 0 where
  le := by rwa [magnitudeValue_zero]
  lt := by linarith
  nearer := .inl ⟨rfl, .inl (by rwa [magnitudeValue_zero, zero_add])⟩

/-- Of the patterns on one side of `a` the neighbour is the nearest. -/
theorem distance_of_le (h : Rounds a below m) {k : Nat} (hk : k ≤ below) :
    a - magnitudeValue below ≤ |a - magnitudeValue k| ∧
      (|a - magnitudeValue k| = a - magnitudeValue below → k = below) := by
  have order := strictMono_magnitudeValue.monotone hk
  rw [abs_of_nonneg (by linarith [h.le])]
  exact ⟨by linarith, fun same => strictMono_magnitudeValue.injective (by linarith)⟩

theorem distance_of_lt (h : Rounds a below m) {k : Nat} (hk : below < k) :
    magnitudeValue (below + 1) - a ≤ |a - magnitudeValue k| ∧
      (|a - magnitudeValue k| = magnitudeValue (below + 1) - a → k = below + 1) := by
  have order := strictMono_magnitudeValue.monotone (Nat.succ_le_of_lt hk)
  rw [abs_of_nonpos (by linarith [h.lt])]
  exact ⟨by linarith, fun same => strictMono_magnitudeValue.injective (by linarith)⟩

/-- No pattern is nearer; another one that is as near is odd, and this one even. -/
theorem nearest (h : Rounds a below m) (k : Nat) :
    |a - magnitudeValue m| ≤ |a - magnitudeValue k| ∧
      (|a - magnitudeValue k| = |a - magnitudeValue m| → k = m ∨ (m % 2 = 0 ∧ k % 2 = 1)) := by
  have here : |a - magnitudeValue below| = a - magnitudeValue below :=
    abs_of_nonneg (by linarith [h.le])
  have there : |a - magnitudeValue (below + 1)| = magnitudeValue (below + 1) - a := by
    rw [abs_of_nonpos (by linarith [h.lt]), neg_sub]
  rcases h.nearer with ⟨rfl, near⟩ | ⟨rfl, near⟩
  · have half : 2 * a ≤ magnitudeValue m + magnitudeValue (m + 1) := by
      rcases near with less | tie <;> linarith
    rw [here]
    rcases Nat.lt_or_ge m k with above | under
    · obtain ⟨far, same⟩ := h.distance_of_lt above
      refine ⟨by linarith, fun equal => .inr ?_⟩
      obtain rfl : k = m + 1 := same (by linarith)
      rcases near with less | ⟨-, even⟩
      · linarith
      · omega
    · obtain ⟨far, same⟩ := h.distance_of_le under
      exact ⟨far, fun equal => .inl (same equal)⟩
  · have half : magnitudeValue below + magnitudeValue (below + 1) ≤ 2 * a := by
      rcases near with less | tie <;> linarith
    rw [there]
    rcases Nat.lt_or_ge below k with above | under
    · obtain ⟨far, same⟩ := h.distance_of_lt above
      exact ⟨far, fun equal => .inl (same equal)⟩
    · obtain ⟨far, same⟩ := h.distance_of_le under
      refine ⟨by linarith, fun equal => .inr ?_⟩
      obtain rfl : k = below := same (by linarith)
      rcases near with less | ⟨-, odd⟩
      · linarith
      · omega

end Rounds

/-! ### Rounding to nearest -/

/-- Half way from the greatest finite magnitude to the one that would follow it. -/
def overflowBound : ℚ := 2 ^ 1024 - 2 ^ 970

/-- Rounding to nearest, ties to even.  From half way past the greatest finite number on, the result
is infinity.  Below that, no finite number is nearer than the result, and where another one is as
near, the result is the even one.  The sign is given apart, since a zero has one too. -/
structure IsRounding (negative : Bool) (r : ℚ) (x : Binary64) : Prop where
  sign : x.negative = negative
  overflow : overflowBound ≤ |r| → x.magnitude = infinity
  finite : |r| < overflowBound → x.magnitude < infinity
  nearest : |r| < overflowBound → ∀ y : Binary64, y.magnitude < infinity →
    |r - x.value| ≤ |r - y.value|
  even : |r| < overflowBound → ∀ y : Binary64, y.magnitude < infinity →
    |r - y.value| = |r - x.value| → y.value = x.value ∨ x.magnitude % 2 = 0

section Signs

variable (s t : Bool) (a b : ℚ)

theorem abs_signed : |signed s a| = |a| := by
  cases s
  · rfl
  · exact abs_neg a

theorem signed_signed : signed s (signed s a) = a := by
  cases s
  · rfl
  · exact neg_neg a

theorem signed_sub : signed s (a - b) = signed s a - signed s b := by
  cases s
  · rfl
  · exact neg_sub' a b

theorem abs_signed_sub_signed : |signed s a - signed s b| = |a - b| := by
  rw [← signed_sub, abs_signed]

/-- A magnitude on the same side of zero is no farther away. -/
theorem abs_sub_le_abs_signed_sub_signed (ha : 0 ≤ a) (hb : 0 ≤ b) :
    |a - b| ≤ |signed s a - signed t b| := by
  have apart : |a - b| ≤ |a + b| := by
    rw [abs_of_nonneg (by linarith : 0 ≤ a + b)]
    exact abs_le.2 ⟨by linarith, by linarith⟩
  cases s <;> cases t <;> simp only [signed, Bool.false_eq_true, if_false, if_true]
  · exact le_refl _
  · rwa [sub_neg_eq_add]
  · rwa [← neg_add', abs_neg]
  · rw [← neg_sub', abs_neg]

/-- On the other side it is as near only if it is, or is compared with, zero. -/
theorem eq_zero_of_abs_signed_sub_signed (hst : s ≠ t)
    (h : |signed s a - signed t b| = |a - b|) : a = 0 ∨ b = 0 := by
  have across : signed s a - signed t b = signed s (a - -b) := by
    cases s <;> cases t
    · exact absurd rfl hst
    · rfl
    · exact show -a - b = -(a - -b) by ring
    · exact absurd rfl hst
  rw [across, abs_signed, abs_eq_abs] at h
  rcases h with h | h
  · exact .inr (by linarith)
  · exact .inl (by linarith)

end Signs

theorem signed_inj {s : Bool} {a b : ℚ} : signed s a = signed s b ↔ a = b := by
  constructor
  · intro h
    rw [← signed_signed s a, h, signed_signed]
  · rintro rfl
    rfl

theorem value_mk (s : Bool) (m : Nat) : value ⟨s, m⟩ = signed s (magnitudeValue m) := rfl

theorem magnitudeValue_infinity : magnitudeValue infinity = 2 ^ 1024 := by
  have value : magnitudeValue (2046 * leadingBit + leadingBit) = _ :=
    magnitudeValue_add (Nat.le_mul_of_pos_left _ two_pos) (.inr (le_refl _))
  rw [show 2046 * leadingBit + leadingBit = infinity by decide] at value
  have exponent : ((2046 : Nat) - 1074 : Int) = (972 : Nat) := by decide
  have split : (2 : ℚ) ^ 1024 = 2 ^ 52 * 2 ^ 972 := by rw [← pow_add]
  rw [value, exponent, zpow_natCast, split, leadingBit, Nat.pow_eq, Nat.cast_pow, Nat.cast_two]

theorem magnitudeValue_before_infinity : magnitudeValue (infinity - 1) = 2 ^ 1024 - 2 ^ 971 := by
  have value : magnitudeValue (2045 * leadingBit + (2 * leadingBit - 1)) = _ :=
    magnitudeValue_add (Nat.sub_le _ _) (.inr (by decide))
  rw [show 2045 * leadingBit + (2 * leadingBit - 1) = infinity - 1 by decide] at value
  have significand : ((2 * leadingBit - 1 : Nat) : ℚ) = 2 ^ 53 - 1 := by
    rw [leadingBit]
    norm_num
  have exponent : ((2045 : Nat) - 1074 : Int) = (971 : Nat) := by decide
  have split : (2 : ℚ) ^ 1024 = 2 ^ 53 * 2 ^ 971 := by rw [← pow_add]
  rw [value, exponent, zpow_natCast, split, significand, sub_one_mul]

/-- The bound lies half way between the last finite pattern and that of infinity. -/
theorem two_mul_overflowBound :
    2 * overflowBound = magnitudeValue (infinity - 1) + magnitudeValue (infinity - 1 + 1) := by
  have split : (2 : ℚ) ^ 971 = 2 ^ 970 * 2 := pow_succ 2 970
  rw [Nat.sub_add_cancel (by decide), magnitudeValue_infinity, magnitudeValue_before_infinity,
    overflowBound, split]
  generalize (2 : ℚ) ^ 970 = half
  generalize (2 : ℚ) ^ 1024 = next
  linarith

namespace Rounds

variable {a : ℚ} {below m : Nat}

theorem nonneg (h : Rounds a below m) : 0 ≤ a := le_trans (magnitudeValue_nonneg below) h.le

theorem le_succ (h : Rounds a below m) : m ≤ below + 1 := by
  rcases h.nearer with ⟨rfl, -⟩ | ⟨rfl, -⟩ <;> omega

theorem below_le (h : Rounds a below m) : below ≤ m := by
  rcases h.nearer with ⟨rfl, -⟩ | ⟨rfl, -⟩ <;> omega

/-- The last finite pattern is odd, so half way to infinity rounding leaves the finite ones. -/
theorem lt_infinity_iff (h : Rounds a below m) : m < infinity ↔ a < overflowBound := by
  have bound := two_mul_overflowBound
  have mono := strictMono_magnitudeValue
  have last : infinity - 1 + 1 = infinity := Nat.sub_add_cancel (by decide)
  have step : magnitudeValue (infinity - 1) < magnitudeValue (infinity - 1 + 1) :=
    mono (Nat.lt_succ_self _)
  rcases Nat.lt_trichotomy below (infinity - 1) with less | rfl | more
  · have next : magnitudeValue (below + 1) ≤ magnitudeValue (infinity - 1) :=
      mono.monotone (Nat.succ_le_of_lt less)
    have := h.le_succ
    exact ⟨fun _ => by linarith [h.lt], fun _ => by omega⟩
  · have odd : (infinity - 1) % 2 = 1 := by decide
    rcases h.nearer with ⟨rfl, less | ⟨-, even⟩⟩ | ⟨rfl, more⟩
    · exact ⟨fun _ => by linarith, fun _ => by omega⟩
    · omega
    · refine ⟨fun _ => by omega, fun _ => ?_⟩
      rcases more with more | ⟨tie, -⟩ <;> linarith
  · have next : magnitudeValue (infinity - 1 + 1) ≤ magnitudeValue below :=
      mono.monotone (Nat.succ_le_of_lt more)
    have := h.below_le
    exact ⟨fun _ => by omega, fun _ => by linarith [h.le]⟩

/-- A magnitude that is zero has an even pattern. -/
theorem even_of_eq_zero (h : Rounds a below m) (hz : a = 0 ∨ magnitudeValue m = 0) :
    m % 2 = 0 := by
  have zero : magnitudeValue m = 0 := by
    rcases hz with rfl | hz
    · have near := (h.nearest 0).1
      rwa [magnitudeValue_zero, sub_zero, abs_zero, zero_sub, abs_neg, abs_nonpos_iff] at near
    · exact hz
  rw [strictMono_magnitudeValue.injective (zero.trans magnitudeValue_zero.symm)]

theorem eq_or_even (h : Rounds a below m) {s : Bool} (y : Binary64)
    (equal : |signed s a - y.value| = |signed s a - value ⟨s, m⟩|) :
    y.value = value ⟨s, m⟩ ∨ m % 2 = 0 := by
  obtain ⟨t, k⟩ := y
  have near := (h.nearest k).1
  have across := abs_sub_le_abs_signed_sub_signed s t a _ h.nonneg (magnitudeValue_nonneg k)
  rw [value_mk, value_mk, abs_signed_sub_signed] at equal
  rcases (h.nearest k).2 (by linarith) with rfl | ⟨even, -⟩
  · by_cases hst : s = t
    · exact .inl (by rw [hst])
    · exact .inr (h.even_of_eq_zero (eq_zero_of_abs_signed_sub_signed s t a _ hst equal))
  · exact .inr even

/-- In the row that ends with infinity, rounding is that of the row without an end, as far as that
stays finite. -/
theorem isRounding (h : Rounds a below m) (s : Bool) :
    IsRounding s (signed s a) ⟨s, min infinity m⟩ := by
  have size : |signed s a| = a := by rw [abs_signed, abs_of_nonneg h.nonneg]
  have stays (small : |signed s a| < overflowBound) : min infinity m = m := by
    rw [size, ← h.lt_infinity_iff] at small
    exact Nat.min_eq_right (Nat.le_of_lt small)
  refine ⟨rfl, fun large => ?_, fun small => ?_, fun small y hy => ?_, fun small y hy equal => ?_⟩
  · rw [size] at large
    exact Nat.min_eq_left (Nat.le_of_not_lt fun finite =>
      absurd (h.lt_infinity_iff.1 finite) (not_lt.2 large))
  · rw [stays small]
    rwa [size, ← h.lt_infinity_iff] at small
  · rw [stays small, value_mk, abs_signed_sub_signed]
    exact (h.nearest y.magnitude).1.trans
      (abs_sub_le_abs_signed_sub_signed s y.negative a _ h.nonneg (magnitudeValue_nonneg _))
  · rw [stays small] at equal ⊢
    exact h.eq_or_even y equal

end Rounds

theorem isRounding_infinity {a : ℚ} (h : overflowBound ≤ a) (s : Bool) :
    IsRounding s (signed s a) ⟨s, infinity⟩ := by
  have large : overflowBound ≤ |signed s a| := by
    rw [abs_signed]
    exact h.trans (le_abs_self a)
  exact ⟨rfl, fun _ => rfl, fun small => absurd small (not_lt.2 large),
    fun small => absurd small (not_lt.2 large), fun small => absurd small (not_lt.2 large)⟩

/-- Between two numbers at one distance every other one is nearer. -/
theorem abs_sub_lt_of_between {r b c d : ℚ} (same : |r - b| = |r - d|) (hbc : b < c) (hcd : c < d) :
    |r - c| < |r - b| := by
  rcases abs_eq_abs.1 same with h | h
  · linarith
  · rw [abs_of_nonneg (by linarith : 0 ≤ r - b), abs_lt]
    constructor <;> linarith

/-- Two even patterns have one between them, so they are not both nearest. -/
theorem not_even_of_nearest {r : ℚ} {m k : Nat} (hlt : m < k) (hk : k < infinity)
    (nearest : ∀ j < infinity, |r - magnitudeValue m| ≤ |r - magnitudeValue j|)
    (same : |r - magnitudeValue m| = |r - magnitudeValue k|) (even : m % 2 = 0) : k % 2 ≠ 0 := by
  intro even'
  have between : m + 1 < k := by omega
  have nearer := abs_sub_lt_of_between same (strictMono_magnitudeValue (Nat.lt_succ_self m))
    (strictMono_magnitudeValue between)
  exact absurd (nearest (m + 1) (between.trans hk)) (not_le.2 nearer)

/-- What is rounded so is determined, its sign included. -/
theorem IsRounding.unique {s : Bool} {r : ℚ} {x y : Binary64} (hx : IsRounding s r x)
    (hy : IsRounding s r y) : x = y := by
  obtain ⟨_, m⟩ := x
  obtain ⟨_, k⟩ := y
  obtain rfl := hx.sign
  obtain rfl := hy.sign
  rw [mk.injEq]
  refine ⟨rfl, ?_⟩
  rcases le_or_gt overflowBound |r| with large | small
  · exact (hx.overflow large).trans (hy.overflow large).symm
  · rename_i s
    have hm := hx.finite small
    have hk := hy.finite small
    -- on the side of zero where both lie, distances are those of the magnitudes
    have side (j : Nat) : |r - value ⟨s, j⟩| = |signed s r - magnitudeValue j| := by
      rw [value_mk, ← signed_signed s r, abs_signed_sub_signed, signed_signed]
    have nearest (j : Nat) (hj : j < infinity) :
        |signed s r - magnitudeValue m| ≤ |signed s r - magnitudeValue j| := by
      rw [← side, ← side]
      exact hx.nearest small ⟨s, j⟩ hj
    have nearest' (j : Nat) (hj : j < infinity) :
        |signed s r - magnitudeValue k| ≤ |signed s r - magnitudeValue j| := by
      rw [← side, ← side]
      exact hy.nearest small ⟨s, j⟩ hj
    have same := le_antisymm (nearest k hk) (nearest' m hm)
    rcases hx.even small ⟨s, k⟩ hk (by rw [side, side, same]) with equal | even
    · exact (strictMono_magnitudeValue.injective (signed_inj.1 equal)).symm
    rcases hy.even small ⟨s, m⟩ hm (by rw [side, side, same]) with equal | even'
    · exact strictMono_magnitudeValue.injective (signed_inj.1 equal)
    rcases Nat.lt_trichotomy m k with less | equal | more
    · exact absurd even' (not_even_of_nearest less hk nearest same even)
    · exact equal
    · exact absurd even (not_even_of_nearest more hm nearest' same.symm even')

/-! ### The arithmetic of rounding -/

/-- The integer nearest to a ratio is one of the two around it. -/
theorem divideToEven_spec (num : Nat) {den t : Nat} (hd : 0 < den) (ht : num / den = t) :
    (t : ℚ) ≤ num / den ∧ (num / den : ℚ) < t + 1 ∧
      HalfEven (2 * (num / den)) (2 * t + 1) t (divideToEven num den) := by
  have hden : (0 : ℚ) < den := Nat.cast_pos.2 hd
  -- the ratio is the quotient and a fraction, which is compared with one half
  have whole : (num / den : ℚ) = t + (num % den : Nat) / den := by
    have split : (num : ℚ) = t * den + (num % den : Nat) := by
      rw [← ht]
      exact_mod_cast (Nat.div_add_mod' num den).symm
    rw [eq_comm, ← mul_div_cancel_right₀ (t : ℚ) hden.ne', ← add_div, ← split]
  have least : 0 ≤ ((num % den : Nat) / den : ℚ) := div_nonneg (Nat.cast_nonneg _) hden.le
  have most : ((num % den : Nat) / den : ℚ) < 1 :=
    (div_lt_one hden).2 (Nat.cast_lt.2 (Nat.mod_lt num hd))
  have twice : 2 * ((num % den : Nat) / den : ℚ) = (2 * (num % den) : Nat) / den := by
    rw [Nat.cast_mul, Nat.cast_two, mul_div_assoc]
  rw [whole]
  refine ⟨by linarith, by linarith, ?_⟩
  rw [divideToEven, ht]
  rcases Nat.lt_trichotomy (2 * (num % den)) den with less | tie | more
  · have half := (div_lt_one hden).2 (Nat.cast_lt (α := ℚ).2 less)
    rw [if_pos less]
    exact .inl ⟨rfl, .inl (by linarith)⟩
  · have half := (div_eq_one_iff_eq hden.ne').2 (congrArg (Nat.cast (R := ℚ)) tie)
    rw [if_neg (by omega), if_neg (by omega)]
    rcases Nat.mod_two_eq_zero_or_one t with even | odd
    · exact .inl ⟨by rw [even, Nat.add_zero], .inr ⟨by linarith, even⟩⟩
    · exact .inr ⟨by rw [odd], .inr ⟨by linarith, odd⟩⟩
  · have half := (one_lt_div hden).2 (Nat.cast_lt (α := ℚ).2 more)
    rw [if_neg (by omega), if_pos more]
    exact .inr ⟨rfl, .inl (by linarith)⟩

theorem unscale_spec (num : Nat) {den : Nat} (hd : 0 < den) (q : Int) :
    0 < (unscale num den q).2 ∧
      ((unscale num den q).1 / (unscale num den q).2 : ℚ) = num / den / 2 ^ q := by
  unfold unscale
  split
  · obtain ⟨k, rfl⟩ := Int.eq_ofNat_of_zero_le ‹0 ≤ q›
    refine ⟨Nat.mul_pos hd (Nat.two_pow_pos k), ?_⟩
    rw [Int.toNat_natCast, Nat.pow_eq, Nat.cast_mul, Nat.cast_pow, Nat.cast_two, zpow_natCast,
      div_div]
  · obtain ⟨k, hk⟩ := Int.eq_ofNat_of_zero_le (show 0 ≤ -q by omega)
    obtain rfl : q = -(k : Int) := by omega
    refine ⟨hd, ?_⟩
    rw [neg_neg, Int.toNat_natCast, Nat.pow_eq, Nat.cast_mul, Nat.cast_pow, Nat.cast_two, zpow_neg,
      zpow_natCast, div_inv_eq_mul, div_mul_eq_mul_div]

theorem two_zpow_log2_le {n : Nat} (hn : 0 < n) : (2 : ℚ) ^ (n.log2 : Int) ≤ n := by
  rw [zpow_natCast]
  exact_mod_cast Nat.log2_self_le hn.ne'

theorem lt_two_zpow_log2 (n : Nat) : (n : ℚ) < 2 ^ (n.log2 + 1 : Int) := by
  exact_mod_cast Nat.lt_log2_self (n := n)

theorem floorLog2_spec {num den : Nat} (hn : 0 < num) (hd : 0 < den) :
    (2 : ℚ) ^ floorLog2 num den ≤ num / den ∧ (num / den : ℚ) < 2 ^ (floorLog2 num den + 1) := by
  have hden : (0 : ℚ) < den := Nat.cast_pos.2 hd
  have lower : (2 : ℚ) ^ (num.log2 - den.log2 - 1 : Int) ≤ num / den := by
    rw [le_div_iff₀ hden, sub_sub, zpow_sub₀ two_ne_zero, div_mul_eq_mul_div,
      div_le_iff₀ (zpow_pos two_pos _)]
    exact mul_le_mul (two_zpow_log2_le hn) (lt_two_zpow_log2 den).le hden.le (Nat.cast_nonneg num)
  have upper : (num / den : ℚ) < 2 ^ (num.log2 - den.log2 + 1 : Int) := by
    rw [div_lt_iff₀ hden, sub_add_eq_add_sub, zpow_sub₀ two_ne_zero, div_mul_eq_mul_div,
      lt_div_iff₀ (zpow_pos two_pos _)]
    exact mul_lt_mul (lt_two_zpow_log2 num) (two_zpow_log2_le hd) (zpow_pos two_pos _)
      (zpow_pos two_pos _).le
  obtain ⟨pos, ratio⟩ := unscale_spec num hd (num.log2 - den.log2)
  have compare : (unscale num den (num.log2 - den.log2)).2 ≤
      (unscale num den (num.log2 - den.log2)).1 ↔
      (2 : ℚ) ^ (num.log2 - den.log2 : Int) ≤ num / den := by
    rw [← Nat.cast_le (α := ℚ), ← one_le_div (Nat.cast_pos.2 pos), ratio,
      one_le_div (zpow_pos two_pos _)]
  unfold floorLog2
  dsimp only
  split
  · exact ⟨compare.1 ‹_›, upper⟩
  · rw [sub_add_cancel]
    exact ⟨lower, not_le.1 (mt compare.2 ‹_›)⟩

/-- Rounding in units of the spacing is rounding to an integer. -/
theorem rounds_of_units {a x : ℚ} {e t m : Nat} (ht : t < 2 * leadingBit)
    (he : e = 0 ∨ leadingBit ≤ t) (ha : a = x * 2 ^ (e - 1074 : Int)) (le : t ≤ x) (lt : x < t + 1)
    (nearer : HalfEven (2 * x) (2 * t + 1) t m) :
    Rounds a (e * leadingBit + t) (e * leadingBit + m) := by
  have unit : (0 : ℚ) < 2 ^ (e - 1074 : Int) := zpow_pos two_pos _
  have here := magnitudeValue_add (Nat.le_of_lt ht) he
  have next := magnitudeValue_add (n := t + 1) ht (he.imp_right Nat.le_succ_of_le)
  rw [Nat.cast_succ, ← Nat.add_assoc] at next
  have parity : (e * leadingBit + t) % 2 = t % 2 := by
    have even : leadingBit = 2 * Nat.pow 2 51 := by decide
    rw [even, Nat.mul_left_comm, Nat.mul_add_mod]
  generalize (2 : ℚ) ^ (e - 1074 : Int) = u at unit here next ha
  refine ⟨?_, ?_, ?_⟩
  · rw [here, ha]
    exact mul_le_mul_of_nonneg_right le unit.le
  · rw [next, ha]
    exact mul_lt_mul_of_pos_right lt unit
  · have middle : (t : ℚ) * u + (t + 1) * u = (2 * t + 1) * u := by ring
    have twice : 2 * (x * u) = 2 * x * u := by ring
    rw [HalfEven, here, next, ha, parity, middle, twice, mul_lt_mul_iff_left₀ unit,
      mul_lt_mul_iff_left₀ unit, mul_left_inj' unit.ne', Nat.add_assoc, Nat.add_right_inj,
      Nat.add_right_inj]
    exact nearer

theorem exists_rounds_nearest {num den : Nat} (hn : 0 < num) (hd : 0 < den) :
    ∃ below m, Rounds (num / den) below m ∧ nearest num den = min infinity m := by
  obtain ⟨lower, upper⟩ := floorLog2_spec hn hd
  obtain ⟨e, he⟩ := Int.eq_ofNat_of_zero_le
    (show 0 ≤ spacing num den + 1074 by unfold spacing; omega)
  have hq : spacing num den = e - 1074 := by omega
  have unit : (0 : ℚ) < 2 ^ (e - 1074 : Int) := zpow_pos two_pos _
  obtain ⟨pos, ratio⟩ := unscale_spec num hd (e - 1074)
  obtain ⟨le, lt, nearer⟩ := divideToEven_spec (unscale num den (e - 1074)).1 pos rfl
  rw [ratio] at le lt nearer
  have small : (num / den / 2 ^ (e - 1074 : Int) : ℚ) < (2 * leadingBit : Nat) := by
    have bits : ((2 * leadingBit : Nat) : ℚ) = 2 ^ (53 : Int) := by
      rw [leadingBit]
      norm_num
    rw [div_lt_iff₀ unit, bits, ← zpow_add₀ two_ne_zero]
    refine upper.trans_le (zpow_le_zpow_right₀ one_le_two ?_)
    unfold spacing at hq
    omega
  have large : e = 0 ∨ ((leadingBit : Nat) : ℚ) ≤ num / den / 2 ^ (e - 1074 : Int) := by
    rcases Nat.eq_zero_or_pos e with zero | positive
    · exact .inl zero
    · have bits : ((leadingBit : Nat) : ℚ) = 2 ^ (52 : Int) := by
        rw [leadingBit]
        norm_num
      rw [le_div_iff₀ unit, bits, ← zpow_add₀ two_ne_zero]
      refine .inr (le_trans (zpow_le_zpow_right₀ one_le_two ?_) lower)
      unfold spacing at hq
      omega
  refine ⟨_, _, rounds_of_units ?_ ?_ (div_mul_cancel₀ _ unit.ne').symm le lt nearer, ?_⟩
  · exact Nat.cast_lt.1 (le.trans_lt small)
  · refine large.imp_right fun large => Nat.le_of_lt_succ ?_
    exact_mod_cast large.trans_lt lt
  · rw [nearest, hq, sub_add_cancel, Int.toNat_natCast]

end Binary64

/-- The number that a decimal is. -/
def Decimal.value (d : Decimal) : ℚ := Binary64.signed d.negative (d.digits * 10 ^ d.exponent)

namespace Binary64

theorem overflowBound_le : overflowBound ≤ 10 ^ 401 := by
  have ten : (2 : ℚ) ^ 3 ≤ 10 := by norm_num
  calc overflowBound ≤ (2 : ℚ) ^ 1024 := sub_le_self _ (pow_nonneg two_pos.le _)
    _ ≤ 2 ^ (3 * 401) := pow_le_pow_right₀ one_le_two (by decide)
    _ = (2 ^ 3) ^ 401 := pow_mul 2 3 401
    _ ≤ 10 ^ 401 := pow_le_pow_left₀ (pow_nonneg two_pos.le _) ten _

/-- Under the bound, which is in binary since ten is more than eight, not even the half of the least
magnitude is reached. -/
theorem two_mul_lt_magnitudeValue_one {digits : Nat} {exponent : Int} (he : exponent < 0)
    (h : digits.log2 + 1 + 3 * exponent ≤ -1076) :
    2 * (digits * 10 ^ exponent : ℚ) < magnitudeValue 1 := by
  obtain ⟨k, hk⟩ := Int.eq_ofNat_of_zero_le (show 0 ≤ -exponent by omega)
  obtain rfl : exponent = -(k : Int) := by omega
  have least : magnitudeValue 1 = 2 ^ (-1074 : Int) := by
    rw [magnitudeValue_subnormal (by decide), Nat.cast_one, one_mul]
  have ten : (10 : ℚ) ^ (-(k : Int)) ≤ 2 ^ (3 * -(k : Int)) := by
    have eight : (2 : ℚ) ^ (3 : Int) ≤ 10 := by norm_num
    rw [zpow_mul, zpow_neg, zpow_neg, zpow_natCast, zpow_natCast]
    exact inv_anti₀ (pow_pos (zpow_pos two_pos _) k)
      (pow_le_pow_left₀ (zpow_pos two_pos _).le eight k)
  have below : (digits * 10 ^ (-(k : Int)) : ℚ) < 2 ^ (-1076 : Int) := by
    calc (digits * 10 ^ (-(k : Int)) : ℚ)
        < 2 ^ (digits.log2 + 1 : Int) * 2 ^ (3 * -(k : Int)) :=
          mul_lt_mul (lt_two_zpow_log2 digits) ten (zpow_pos (by norm_num) _)
            (zpow_pos two_pos _).le
      _ = 2 ^ (digits.log2 + 1 + 3 * -(k : Int)) := (zpow_add₀ two_ne_zero _ _).symm
      _ ≤ 2 ^ (-1076 : Int) := zpow_le_zpow_right₀ one_le_two h
  have double : (2 : ℚ) ^ (-1076 + 1 : Int) = 2 ^ (-1076 : Int) * 2 := zpow_add_one₀ two_ne_zero _
  have order : (2 : ℚ) ^ (-1076 + 1 : Int) ≤ 2 ^ (-1074 : Int) :=
    zpow_le_zpow_right₀ one_le_two (by decide)
  rw [least]
  linarith

theorem nearestDecimal_cases (digits : Nat) (exponent : Int) :
    (overflowBound ≤ digits * 10 ^ exponent ∧ nearestDecimal digits exponent = infinity) ∨
      ∃ below m, Rounds (digits * 10 ^ exponent) below m ∧
        nearestDecimal digits exponent = min infinity m := by
  unfold nearestDecimal
  split_ifs with zero large whole tiny
  · refine .inr ⟨0, 0, Rounds.zero ?_ ?_, rfl⟩ <;> rw [zero, Nat.cast_zero, zero_mul]
    rw [mul_zero, ← magnitudeValue_zero]
    exact strictMono_magnitudeValue one_pos
  · refine .inl ⟨overflowBound_le.trans ?_, rfl⟩
    have some : (1 : ℚ) ≤ digits := Nat.one_le_cast.2 (Nat.pos_of_ne_zero zero)
    calc (10 : ℚ) ^ 401 = 10 ^ (401 : Int) := (zpow_natCast 10 401).symm
      _ ≤ 10 ^ exponent := zpow_le_zpow_right₀ (by norm_num) (by omega)
      _ ≤ digits * 10 ^ exponent := le_mul_of_one_le_left (zpow_pos (by norm_num) _).le some
  · obtain ⟨k, rfl⟩ := Int.eq_ofNat_of_zero_le whole
    have value : ((digits * Nat.pow 10 k : Nat) / (1 : Nat) : ℚ) = digits * 10 ^ (k : Int) := by
      rw [Nat.pow_eq, Nat.cast_one, div_one, zpow_natCast, Nat.cast_mul, Nat.cast_pow,
        Nat.cast_ofNat]
    rw [← value, Int.toNat_natCast]
    exact .inr (exists_rounds_nearest (Nat.mul_pos (by omega) (Nat.pow_pos (by decide))) one_pos)
  · exact .inr ⟨0, 0, Rounds.zero (by positivity)
      (two_mul_lt_magnitudeValue_one (by omega) tiny), rfl⟩
  · obtain ⟨k, hk⟩ := Int.eq_ofNat_of_zero_le (show 0 ≤ -exponent by omega)
    obtain rfl : exponent = -(k : Int) := by omega
    have value : (digits / (Nat.pow 10 k : Nat) : ℚ) = digits * 10 ^ (-(k : Int)) := by
      rw [Nat.pow_eq, zpow_neg, zpow_natCast, Nat.cast_pow, Nat.cast_ofNat, div_eq_mul_inv]
    rw [← value, neg_neg, Int.toNat_natCast]
    exact .inr (exists_rounds_nearest (Nat.pos_of_ne_zero zero) (Nat.pow_pos (by decide)))

/-- Decimals are rounded to nearest, ties to even. -/
theorem isRounding_ofDecimal (d : Decimal) : IsRounding d.negative d.value (ofDecimal d) := by
  unfold ofDecimal Decimal.value
  rcases nearestDecimal_cases d.digits d.exponent with ⟨large, infinite⟩ | ⟨below, m, rounds, near⟩
  · rw [infinite]
    exact isRounding_infinity large d.negative
  · rw [near]
    exact rounds.isRounding d.negative

end Binary64

end Backtrack
