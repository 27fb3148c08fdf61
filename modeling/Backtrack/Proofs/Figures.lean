import Mathlib.Data.Nat.Digits.Lemmas
import Backtrack.Lexeme.Integer

/-!
# Figures

The figures of the bases up to sixteen, by the tables of how they are written, and the number that a
row of them makes.  The digits of each radix are exactly the figures of its base, and reading a
numeral gives the number that its figures make.

* `Numeral.figure?`, `Numeral.Spells`: what characters count as figures.
* `Numeral.number`: the number that a row of figures makes.
* `Numeral.read?_eq_number`: what reading gives.
* `Lexeme.Radix.Exact`: the digits of a radix are the figures of its base.
-/

namespace Backtrack

namespace Numeral

/-! ### Characters -/

/-- The figures in ascending order, with small letters. -/
def smallFigures : Text :=
  .ofChars ['0', '1', '2', '3', '4', '5', '6', '7', '8', '9', 'a', 'b', 'c', 'd', 'e', 'f']

/-- The figures in ascending order, with capital letters. -/
def capitalFigures : Text :=
  .ofChars ['0', '1', '2', '3', '4', '5', '6', '7', '8', '9', 'A', 'B', 'C', 'D', 'E', 'F']

/-- What a character counts as a figure, its letter in either case. -/
def figure? (c : CodePoint) : Option Nat := smallFigures.idxOf? c <|> capitalFigures.idxOf? c

/-- Whether a character is a figure of the base. -/
def isFigure (base : Nat) (c : CodePoint) : Bool := (figure? c).any (· < base)

theorem isFigure_iff {base : Nat} {c : CodePoint} :
    isFigure base c = true ↔ ∃ d, figure? c = some d ∧ d < base := by
  simp [isFigure, Option.any_eq_true]

theorem mem_of_figure? {c : CodePoint} {d : Nat} (h : figure? c = some d) :
    c ∈ smallFigures ++ capitalFigures := by
  rw [List.mem_append]
  by_contra hc
  obtain ⟨small, capital⟩ := not_or.1 hc
  rw [figure?, List.idxOf?_eq_none_iff.2 small, List.idxOf?_eq_none_iff.2 capital] at h
  cases h

theorem digit?_of_figure? {c : CodePoint} {d : Nat} (h : figure? c = some d) :
    digit? c = some d := by
  have same : (smallFigures ++ capitalFigures).all (fun c => digit? c = figure? c) := by decide
  rw [of_decide_eq_true (List.all_eq_true.1 same c (mem_of_figure? h)), h]

/-! ### Rows -/

/-- The text writes the figures, one character for each. -/
def Spells (t : Text) (ds : List Nat) : Prop := t.map figure? = ds.map some

/-- The number that the figures of a text make, the most significant one first. -/
def number (base : Nat) (t : Text) : Nat := Nat.ofDigits base (t.filterMap figure?).reverse

section Rows

variable {base : Nat} {t u : Text} {ds es : List Nat} {c : CodePoint} {d : Nat}

theorem Spells.append (h : Spells t ds) (h' : Spells u es) : Spells (t ++ u) (ds ++ es) := by
  rw [Spells, List.map_append, List.map_append, h, h']

theorem spells_replicate (h : figure? c = some d) (k : Nat) :
    Spells (List.replicate k c) (List.replicate k d) := by
  rw [Spells, List.map_replicate, List.map_replicate, h]

theorem Spells.length_eq (h : Spells t ds) : t.length = ds.length := by
  simpa using congrArg List.length h

theorem Spells.filterMap_eq (h : Spells t ds) : t.filterMap figure? = ds := by
  have ids := congrArg (List.filterMap id) h
  rwa [List.filterMap_map, List.filterMap_map, Function.id_comp, Function.id_comp,
    List.filterMap_some] at ids

theorem Spells.number_eq (h : Spells t ds) : number base t = Nat.ofDigits base ds.reverse := by
  rw [number, h.filterMap_eq]

theorem Spells.isFigure (h : Spells t ds) (small : ∀ d ∈ ds, d < base) (hc : c ∈ t) :
    isFigure base c = true := by
  have mem : figure? c ∈ ds.map some := h ▸ List.mem_map_of_mem hc
  obtain ⟨d, hd, same⟩ := List.mem_map.1 mem
  exact isFigure_iff.2 ⟨d, same.symm, small d hd⟩

theorem spells_of_figures (h : ∀ c ∈ t, isFigure base c = true) :
    Spells t (t.filterMap figure?) := by
  rw [Spells, List.map_filterMap_some_eq_filter_map_isSome, List.filter_eq_self.2]
  intro o ho
  obtain ⟨c, hc, rfl⟩ := List.mem_map.1 ho
  obtain ⟨d, hd, -⟩ := isFigure_iff.1 (h c hc)
  rw [hd]
  rfl

theorem readFrom?_eq (h : ∀ c ∈ t, isFigure base c = true) (acc : Nat) :
    readFrom? base acc t = some (acc * base ^ t.length + number base t) := by
  induction t generalizing acc with
  | nil => simp [readFrom?, number]
  | cons c t ih =>
    obtain ⟨hc, h⟩ := List.forall_mem_cons.1 h
    obtain ⟨d, hd, small⟩ := isFigure_iff.1 hc
    have length := (spells_of_figures h).length_eq
    have first : number base (c :: t) = number base t + base ^ t.length * d := by
      rw [number, List.filterMap_cons_some hd, Nat.ofDigits_reverse_cons, length, number]
    simp only [readFrom?, digit?_of_figure? hd, if_pos small]
    rw [ih h, first, List.length_cons]
    ring_nf

/-- Figures in front count by the power of the base that those after them leave. -/
theorem number_append (h : ∀ c ∈ u, isFigure base c = true) :
    number base (t ++ u) = number base t * base ^ u.length + number base u := by
  have length := (spells_of_figures h).length_eq
  rw [number, List.filterMap_append, List.reverse_append, Nat.ofDigits_append, List.length_reverse,
    ← length, number, number, Nat.add_comm, Nat.mul_comm]

/-- Reading gives the number that the figures make. -/
theorem read?_eq_number (h : ∀ c ∈ t, isFigure base c = true) (filled : t ≠ []) :
    read? base t = some (number base t) := by
  obtain ⟨c, rest, rfl⟩ := List.exists_cons_of_ne_nil filled
  simpa [read?] using readFrom?_eq h 0

theorem number_lt (hb : 1 < base) (h : ∀ c ∈ t, isFigure base c = true) :
    number base t < base ^ t.length := by
  have row := spells_of_figures h
  have length : t.length = (t.filterMap figure?).reverse.length := by
    rw [List.length_reverse, row.length_eq]
  rw [number, length]
  refine Nat.ofDigits_lt_base_pow_length hb fun d hd => ?_
  obtain ⟨c, hc, same⟩ := List.mem_filterMap.1 (List.mem_reverse.1 hd)
  obtain ⟨e, he, small⟩ := isFigure_iff.1 (h c hc)
  rw [he] at same
  exact Option.some.inj same ▸ small

end Rows

end Numeral

/-! ### Radices -/

namespace Lexeme.Radix

open Numeral (isFigure)

/-- The digits of the radix are the figures of its base. -/
def Exact (r : Radix) : Prop := ∀ c, r.digits.contains c = isFigure r.base c

theorem exact_of_all {r : Radix} (digits : r.digits.all (isFigure r.base))
    (figures : ((Numeral.smallFigures ++ Numeral.capitalFigures).filter (isFigure r.base)).all
      r.digits.contains) : r.Exact := by
  intro c
  rw [Bool.eq_iff_iff]
  refine ⟨fun hc => List.all_eq_true.1 digits c (List.contains_iff_mem.1 hc), fun hc => ?_⟩
  obtain ⟨d, hd, -⟩ := Numeral.isFigure_iff.1 hc
  exact List.all_eq_true.1 figures c (List.mem_filter.2 ⟨Numeral.mem_of_figure? hd, hc⟩)

theorem exact_binary : binary.Exact := exact_of_all (by decide) (by decide)

theorem exact_octal : octal.Exact := exact_of_all (by decide) (by decide)

theorem exact_decimal : decimal.Exact := exact_of_all (by decide) (by decide)

theorem exact_hexadecimal : hexadecimal.Exact := exact_of_all (by decide) (by decide)

end Lexeme.Radix

end Backtrack
