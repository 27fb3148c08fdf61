import Mathlib.Algebra.Order.Ring.Nat
import Mathlib.Data.List.TakeWhile
import Backtrack.Decimal.Basic

/-!
# Digits are read in full

A run of digits of a base denotes a number.  A decimal is read from each of its written forms: the
readers find the same parts that the forms are put together from.

* `Numeral.IsDigits`, `Numeral.exists_read?`: runs of digits.
* `Decimal.IsTail`, `Decimal.exists_readTail?`: what may stand after the fraction.
* `Decimal.readUnsigned?_pointed`, `Decimal.readUnsigned?_integral`: decimals with and without a
  point.
* `Decimal.read?_of_readUnsigned?`: their signs.
-/

namespace Backtrack

/-! ### Numerals -/

namespace Numeral

/-- All code points of the text are digits of the base. -/
def IsDigits (base : Nat) (t : Text) : Prop := ∀ c ∈ t, ∃ d, digit? c = some d ∧ d < base

theorem isDigits_of_all {base : Nat} {t : Text}
    (h : t.all fun c => (digit? c).any (· < base)) : IsDigits base t := by
  intro c hc
  simpa [Option.any_eq_true] using List.all_eq_true.1 h c hc

theorem exists_readFrom? {base : Nat} {t : Text} (h : IsDigits base t) (acc : Nat) :
    ∃ n, readFrom? base acc t = some n := by
  induction t generalizing acc with
  | nil => exact ⟨acc, rfl⟩
  | cons c t ih =>
    obtain ⟨⟨d, hd, hlt⟩, h⟩ := List.forall_mem_cons.1 h
    obtain ⟨n, hn⟩ := ih h (acc * base + d)
    exact ⟨n, by simp only [readFrom?, hd, if_pos hlt, hn]⟩

/-- A run of digits denotes a number. -/
theorem exists_read? {base : Nat} {t : Text} (h : IsDigits base t) (hne : t ≠ []) :
    ∃ n, read? base t = some n := by
  obtain ⟨c, rest, rfl⟩ := List.exists_cons_of_ne_nil hne
  simpa [read?] using exists_readFrom? h 0

end Numeral

/-! ### Decimals -/

namespace Decimal

open CodePoint (ofChar)

/-- All code points of the text are decimal digits. -/
def IsDigits (t : Text) : Prop := ∀ c ∈ t, c ∈ Text.Class.decimal

/-- The text does not start with a decimal digit. -/
def NoDigitAhead (t : Text) : Prop := ∀ c, t.head? = some c → c ∉ Text.Class.decimal

/-- An exponent with its letter: an optional sign and digits. -/
def IsExponent (t : Text) : Prop :=
  ∃ sign digits, t = ofChar 'e' :: (sign ++ digits) ∧
    (sign = [] ∨ sign = [ofChar '+'] ∨ sign = [ofChar '-']) ∧ digits ≠ [] ∧ IsDigits digits

/-- Nothing, or an exponent. -/
def IsTail (t : Text) : Prop := t = [] ∨ IsExponent t

theorem IsDigits.numeral {t : Text} (h : IsDigits t) : Numeral.IsDigits 10 t := fun c hc =>
  Numeral.isDigits_of_all (t := Text.Class.decimal) (by decide) c (h c hc)

/-- The digits in front are split off from what cannot go on with them. -/
theorem splitDigits_append {digits rest : Text} (h : IsDigits digits) (hrest : NoDigitAhead rest) :
    splitDigits (digits ++ rest) = (digits, rest) := by
  have member : ∀ c ∈ digits, (Text.Class.decimal.contains c) = true := fun c hc =>
    List.contains_iff_mem.2 (h c hc)
  have stop : rest.takeWhile (Text.Class.decimal.contains ·) = [] ∧
      rest.dropWhile (Text.Class.decimal.contains ·) = rest := by
    cases rest with
    | nil => exact ⟨rfl, rfl⟩
    | cons c rest =>
      have hc : c ∉ Text.Class.decimal := hrest c rfl
      exact ⟨List.takeWhile_cons_of_neg (by simp [hc]), List.dropWhile_cons_of_neg (by simp [hc])⟩
  rw [splitDigits, List.takeWhile_append_of_pos member, List.dropWhile_append_of_pos member,
    stop.1, stop.2, List.append_nil]

/-- A sign is no digit, and neither is the point or the letter of an exponent. -/
theorem not_mem_decimal {c : Char} (h : c ∈ ['-', '+', '.', 'e', 'E']) :
    ofChar c ∉ Text.Class.decimal := by
  rw [Text.Class.decimal, CodePoint.mem_interval, CodePoint.val_ofChar]
  simp only [List.mem_cons, List.not_mem_nil, or_false] at h
  rcases h with rfl | rfl | rfl | rfl | rfl <;> decide

theorem IsDigits.head_ne {t : Text} {c : Char} (h : IsDigits t) (ht : t ≠ []) (rest : Text)
    (hc : c ∈ ['-', '+', '.', 'e', 'E']) : (t ++ rest).head? ≠ some (ofChar c) := by
  obtain ⟨d, t, rfl⟩ := List.exists_cons_of_ne_nil ht
  intro hd
  have same : d = ofChar c := by simpa using hd
  exact not_mem_decimal hc (same ▸ h d List.mem_cons_self)

theorem IsTail.noDigitAhead {t : Text} (h : IsTail t) : NoDigitAhead t := by
  intro c hc
  rcases h with rfl | ⟨sign, digits, rfl, _⟩
  · cases hc
  · obtain rfl : ofChar 'e' = c := by simpa using hc
    exact not_mem_decimal (by simp)

theorem exists_readExponent? {sign digits : Text}
    (hs : sign = [] ∨ sign = [ofChar '+'] ∨ sign = [ofChar '-']) (hne : digits ≠ [])
    (h : IsDigits digits) : ∃ x, readExponent? (sign ++ digits) = some x := by
  obtain ⟨n, hn⟩ := Numeral.exists_read? h.numeral hne
  rcases hs with rfl | rfl | rfl
  · obtain ⟨d, rest, rfl⟩ := List.exists_cons_of_ne_nil hne
    have minus : d ≠ ofChar '-' := fun hd =>
      h.head_ne hne [] (c := '-') (by simp) (by simp [hd])
    have plus : d ≠ ofChar '+' := fun hd =>
      h.head_ne hne [] (c := '+') (by simp) (by simp [hd])
    exact ⟨n, by simp [readExponent?, minus, plus, hn]⟩
  · exact ⟨n, by simp [readExponent?, hn, show ofChar '+' ≠ ofChar '-' by decide]⟩
  · exact ⟨-n, by simp [readExponent?, hn]⟩

theorem exists_readTail? {t : Text} (h : IsTail t) : ∃ x, readTail? t = some x := by
  rcases h with rfl | ⟨sign, digits, rfl, hs, hne, hd⟩
  · exact ⟨0, rfl⟩
  · obtain ⟨x, hx⟩ := exists_readExponent? hs hne hd
    exact ⟨x, by simp [readTail?, hx]⟩

/-- A decimal with a point is read as its digits, and an exponent that is less by those after the
point. -/
theorem readUnsigned?_pointed {whole fraction tail : Text} (hw : IsDigits whole)
    (hf : IsDigits fraction) (hne : whole ≠ [] ∨ fraction ≠ []) (ht : NoDigitAhead tail) :
    readUnsigned? (whole ++ ofChar '.' :: (fraction ++ tail)) =
      (readTail? tail).map fun x : Int =>
        (digitsValue (whole ++ fraction), x - (fraction.length : Int)) := by
  have ahead : NoDigitAhead (ofChar '.' :: (fraction ++ tail)) := by
    intro c hc
    obtain rfl : ofChar '.' = c := by simpa using hc
    exact not_mem_decimal (by simp)
  have filled : ¬(whole.isEmpty && fraction.isEmpty) := by
    rcases hne with hne | hne <;> simp [hne]
  simp only [readUnsigned?, splitDigits_append hw ahead, splitDigits_append hf ht, if_pos, filled]
  rfl

/-- A decimal without a point is read as its digits and its exponent. -/
theorem readUnsigned?_integral {whole tail : Text} (hw : IsDigits whole) (hne : whole ≠ [])
    (ht : NoDigitAhead tail) (hp : tail.head? ≠ some (ofChar '.')) :
    readUnsigned? (whole ++ tail) = (readTail? tail).map fun x => (digitsValue whole, x) := by
  have split := splitDigits_append hw ht
  cases tail with
  | nil =>
    rw [List.append_nil] at split ⊢
    simp [readUnsigned?, split, hne]
  | cons c tail =>
    have point : c ≠ ofChar '.' := fun hc => hp (by simp [hc])
    simp [readUnsigned?, split, point, hne]

theorem readUnsigned?_scaled {whole tail : Text} (hw : IsDigits whole) (hne : whole ≠ [])
    (ht : IsExponent tail) :
    readUnsigned? (whole ++ tail) = (readTail? tail).map fun x => (digitsValue whole, x) := by
  refine readUnsigned?_integral hw hne (IsTail.noDigitAhead (.inr ht)) ?_
  obtain ⟨sign, digits, rfl, -⟩ := ht
  simp [show ofChar 'e' ≠ ofChar '.' by decide]

/-- A minus in front makes the number negative, and is the only sign. -/
theorem read?_of_readUnsigned? {t : Text} {n : Nat × Int} (h : readUnsigned? t = some n)
    (hhead : t.head? ≠ some (ofChar '-')) (negative : Bool) :
    read? ((if negative then [ofChar '-'] else []) ++ t) = some ⟨negative, n.1, n.2⟩ := by
  cases negative with
  | true => simp [read?, h]
  | false =>
    cases t with
    | nil => cases h
    | cons c rest =>
      have hc : c ≠ ofChar '-' := fun hc => hhead (by simp [hc])
      simp [read?, hc, h]

theorem exists_read? {t : Text} {n : Nat × Int} (h : readUnsigned? t = some n)
    (hhead : t.head? ≠ some (ofChar '-')) {sign : Text} (hs : sign = [] ∨ sign = [ofChar '-']) :
    ∃ d, read? (sign ++ t) = some d := by
  rcases hs with rfl | rfl
  · exact ⟨_, read?_of_readUnsigned? h hhead false⟩
  · exact ⟨_, read?_of_readUnsigned? h hhead true⟩

end Decimal

end Backtrack
