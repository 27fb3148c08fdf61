import Mathlib.Algebra.GroupWithZero.Nat
import Mathlib.Data.List.Induction
import Mathlib.Data.Set.Function
import Mathlib.Order.Monotone.Basic
import Backtrack.Location

/-!
# Lines and columns number the offsets

A text falls into lines, with a line feed between any two of them.  The locations of a text are the
lines with the columns up to the one after the last character of the line, and each of them stands
for one offset: the lengths of the lines before it, a line feed for each, and what stands before it
in its own line.  The place of an offset is found by counting line feeds and by looking back for the
last one, and that gives each offset its location, in order.

* `Text.lines`, `Text.lineStart`: the lines, and the offsets at which they start.
* `Location.Within`, `Location.offsetIn`, `Location.Before`: the locations of a text, the offsets
  that they stand for, and their order.
* `Location.EndsAt`: the invariant of the walk over a text.
* `Location.foldl_step_eq`: the walk counts line feeds and looks back for the last one.
* `locations_number_offsets`: the law.
-/

namespace Backtrack

open Location (lineFeed)

/-! ### Lines -/

namespace Text

/-- What stands between the line feeds of a text. -/
def lines (t : Text) : List Text := t.splitOn lineFeed

/-- The offset at which the line with index `k` starts: the lengths of the lines before it, and a
line feed for each of them. -/
def lineStart (t : Text) (k : Nat) : Nat := (((lines t).take k).map (·.length + 1)).sum

variable {s t line last first : Text} {front others : List Text} {k : Nat}

@[simp] theorem lines_nil : lines [] = [[]] := rfl

@[simp] theorem lines_feed (t : Text) : lines (lineFeed :: t) = [] :: lines t := by
  simp [lines, List.splitOn_cons_eq_if_modifyHead]

theorem lines_cons {c : CodePoint} (hc : c ≠ lineFeed) (t : Text) :
    lines (c :: t) = (lines t).modifyHead (c :: ·) := by
  simp [lines, List.splitOn_cons_eq_if_modifyHead, hc]

theorem exists_lines_eq_cons (t : Text) : ∃ first others, lines t = first :: others :=
  List.exists_cons_of_ne_nil (List.splitOn_ne_nil lineFeed t)

/-- Where two texts meet, the first line of the second goes on with the last of the first. -/
theorem lines_append (hs : lines s = front ++ [last]) (ht : lines t = first :: others) :
    lines (s ++ t) = front ++ (last ++ first) :: others := by
  induction s generalizing front last with
  | nil => cases front <;> simp_all
  | cons c s ih =>
    obtain ⟨x, xs, hx⟩ := exists_lines_eq_cons s
    by_cases hc : c = lineFeed
    · -- an empty line of its own, which is not the last
      subst hc
      cases front with
      | nil => simp [hx] at hs
      | cons f front =>
        rw [lines_feed, List.cons_append] at hs
        obtain ⟨rfl, rest⟩ := List.cons.inj hs
        rw [List.cons_append, lines_feed, ih rest]
        rfl
    · -- the first line of `s` begins with `c`, and that line may be the last one
      rw [lines_cons hc, hx, List.modifyHead_cons] at hs
      cases front with
      | nil =>
        obtain ⟨rfl, rfl⟩ := List.cons.inj hs
        rw [List.cons_append, lines_cons hc, ih (show lines s = [] ++ [x] from hx)]
        rfl
      | cons f front =>
        obtain ⟨rfl, rfl⟩ := List.cons.inj hs
        rw [List.cons_append, lines_cons hc, ih (show lines s = (x :: front) ++ [last] from hx)]
        rfl

theorem lineStart_succ (h : (lines t)[k]? = some line) :
    lineStart t (k + 1) = lineStart t k + (line.length + 1) := by
  simp [lineStart, List.take_add_one, h]

theorem lineStart_mono (t : Text) : Monotone (lineStart t) := by
  refine monotone_nat_of_le_succ fun k => ?_
  simp [lineStart, List.take_add_one]

/-- After its last line a text would go on behind one more line feed. -/
theorem lineStart_length (t : Text) : lineStart t (lines t).length = t.length + 1 := by
  rw [lineStart, List.take_length]
  induction t with
  | nil => rfl
  | cons c t ih =>
    by_cases hc : c = lineFeed
    · subst hc
      simp [ih]
      omega
    · obtain ⟨x, xs, hx⟩ := exists_lines_eq_cons t
      rw [hx] at ih
      simp [lines_cons hc, hx] at ih ⊢
      omega

end Text

/-! ### Locations of a text -/

namespace Location

open Text (lines lineStart)

/-- The location is one of the text: a line of it, with a column up to the one after the last
character of the line. -/
structure Within (source : Text) (l : Location) : Prop where
  line_pos : 1 ≤ l.line
  column_pos : 1 ≤ l.column
  fits : ∃ line, (lines source)[l.line - 1]? = some line ∧ l.column - 1 ≤ line.length

/-- The offset that a location of the text stands for: where its line starts, and what stands before
it in the line. -/
def offsetIn (source : Text) (l : Location) : Nat :=
  lineStart source (l.line - 1) + (l.column - 1)

/-- Earlier lines first, and earlier columns first within a line. -/
def Before (l m : Location) : Prop := l.line < m.line ∨ l.line = m.line ∧ l.column < m.column

variable {source t : Text} {l m : Location} {p q : Nat}

theorem eq_or_before (l m : Location) : l = m ∨ l.Before m ∨ m.Before l := by
  obtain ⟨line, column⟩ := l
  obtain ⟨line', column'⟩ := m
  simp only [Before, Location.mk.injEq]
  omega

theorem lineStart_le_offsetIn (source : Text) (l : Location) :
    lineStart source (l.line - 1) ≤ l.offsetIn source := Nat.le_add_right _ _

/-- What a location stands for lies before the start of the next line. -/
theorem Within.offset_lt (h : l.Within source) :
    l.offsetIn source < lineStart source l.line := by
  obtain ⟨line, hline, fits⟩ := h.fits
  have next := Text.lineStart_succ hline
  rw [Nat.sub_add_cancel h.line_pos] at next
  rw [next]
  exact Nat.add_lt_add_left (Nat.lt_succ_of_le fits) _

theorem Within.offset_le_length (h : l.Within source) : l.offsetIn source ≤ source.length := by
  obtain ⟨line, hline, -⟩ := h.fits
  have inside : l.line ≤ (lines source).length := by
    have := (List.getElem?_eq_some_iff.1 hline).1
    have := h.line_pos
    omega
  refine Nat.le_of_lt_succ ?_
  calc l.offsetIn source < lineStart source l.line := h.offset_lt
    _ ≤ lineStart source (lines source).length := Text.lineStart_mono source inside
    _ = source.length + 1 := Text.lineStart_length source

/-- Earlier locations stand for lesser offsets. -/
theorem Within.offset_lt_of_before (hl : l.Within source) (h : l.Before m) :
    l.offsetIn source < m.offsetIn source := by
  rcases h with line | ⟨line, column⟩
  · have earlier : l.line ≤ m.line - 1 := by omega
    calc l.offsetIn source < lineStart source l.line := hl.offset_lt
      _ ≤ lineStart source (m.line - 1) := Text.lineStart_mono source earlier
      _ ≤ m.offsetIn source := lineStart_le_offsetIn source m
  · have := hl.column_pos
    unfold offsetIn
    rw [line]
    omega

theorem Within.before_of_offset_lt (hm : m.Within source)
    (h : l.offsetIn source < m.offsetIn source) : l.Before m := by
  rcases eq_or_before l m with rfl | before | after
  · exact absurd h (Nat.lt_irrefl _)
  · exact before
  · exact absurd h (Nat.not_lt_of_lt (hm.offset_lt_of_before after))

theorem Within.eq_of_offset_eq (hl : l.Within source) (hm : m.Within source)
    (h : l.offsetIn source = m.offsetIn source) : l = m := by
  rcases eq_or_before l m with same | before | after
  · exact same
  · exact absurd h (hl.offset_lt_of_before before).ne
  · exact absurd h (hm.offset_lt_of_before after).ne'

/-! ### The place of an offset -/

/-- The location is where a text ends: in its last line, behind the last character. -/
def EndsAt (t : Text) (l : Location) : Prop :=
  ∃ front last, lines t = front ++ [last] ∧ l = ⟨front.length + 1, last.length + 1⟩

theorem EndsAt.step (h : EndsAt t l) (c : CodePoint) : EndsAt (t ++ [c]) (l.step c) := by
  obtain ⟨front, last, ht, rfl⟩ := h
  by_cases hc : c = lineFeed
  · subst hc
    refine ⟨front ++ [last], [], ?_, by simp [Location.step]⟩
    rw [Text.lines_append ht (Text.lines_feed [])]
    simp
  · refine ⟨front, last ++ [c], Text.lines_append ht (Text.lines_cons hc []), ?_⟩
    simp [Location.step, hc]

/-- The walk over a text comes to where the text ends. -/
theorem endsAt_foldl (t : Text) : EndsAt t (t.foldl step ⟨1, 1⟩) := by
  induction t using List.reverseRecOn with
  | nil => exact ⟨[], [], rfl, rfl⟩
  | append_singleton t c ih =>
    rw [List.foldl_append]
    exact ih.step c

/-- The walk counts line feeds for the line, and the column is how far back the last of them is. -/
theorem foldl_step_eq (t : Text) :
    t.foldl step ⟨1, 1⟩ = ⟨t.count lineFeed + 1, t.reverse.idxOf lineFeed + 1⟩ := by
  induction t using List.reverseRecOn with
  | nil => rfl
  | append_singleton t c ih =>
    rw [List.foldl_append, ih]
    by_cases hc : c = lineFeed
    · simp [step, hc]
    · have farther : (t ++ [c]).reverse.idxOf lineFeed = t.reverse.idxOf lineFeed + 1 := by
        rw [List.reverse_append, List.reverse_singleton, List.singleton_append, List.idxOf_cons,
          beq_false_of_ne hc, cond_false]
      rw [farther]
      simp [step, hc]

/-- Where the text before an offset ends is a location of the whole text, and stands for the
offset. -/
theorem EndsAt.within_append {rest : Text} (h : EndsAt t l) :
    l.Within (t ++ rest) ∧ l.offsetIn (t ++ rest) = t.length := by
  obtain ⟨front, last, ht, rfl⟩ := h
  obtain ⟨first, others, hrest⟩ := Text.exists_lines_eq_cons rest
  have whole := Text.lines_append ht hrest
  have before := Text.lineStart_length t
  rw [Text.lineStart, List.take_length, ht] at before
  refine ⟨⟨Nat.le_add_left 1 _, Nat.le_add_left 1 _, last ++ first, ?_, ?_⟩, ?_⟩
  · simp [whole]
  · simp
  · simp [offsetIn, Text.lineStart, whole] at before ⊢
    omega

theorem within_ofOffset (source : Text) (h : p ≤ source.length) :
    (ofOffset source p).Within source ∧ (ofOffset source p).offsetIn source = p := by
  have ends : (ofOffset source p).Within (source.take p ++ source.drop p) ∧ _ :=
    (endsAt_foldl (source.take p)).within_append
  rwa [List.take_append_drop, List.length_take_of_le h] at ends

end Location

/-- In every text the offsets are numbered by lines and columns, both counted from one, in order.
The note of a diagnostic names the place of the offset where its span starts, or of the end if that
lies past it: the line is one more than the number of line feeds before the offset, the column is
how far back the last of them is (as if there were one right before the text), and the two are a
location of the text that stands for the offset.  A lesser offset has an earlier place, and every
location of the text is the place of one offset. -/
theorem locations_number_offsets (source : Text) :
    (∀ d : Diagnostic,
      let position := min d.span.start source.length
      let place := Location.ofOffset source position
      let before := source.take position
      d.noteIn source = s!"At position {position} (line {place.line}, column {place.column})" ∧
        place = ⟨before.count lineFeed + 1, before.reverse.idxOf lineFeed + 1⟩ ∧
        place.Within source ∧ place.offsetIn source = position) ∧
      (∀ p q, p < q → q ≤ source.length →
        (Location.ofOffset source p).Before (Location.ofOffset source q)) ∧
      Set.BijOn (Location.ofOffset source) {p | p ≤ source.length} {l | l.Within source} := by
  have place {p : Nat} (h : p ≤ source.length) := Location.within_ofOffset source h
  refine ⟨fun d => ?_, fun p q hpq hq => ?_, ⟨fun p hp => (place hp).1, ?_, ?_⟩⟩
  · intro position place' before
    exact ⟨rfl, Location.foldl_step_eq before, place (Nat.min_le_right _ _)⟩
  · obtain ⟨-, offset⟩ := place (p := p) (by omega)
    obtain ⟨within, offset'⟩ := place hq
    exact within.before_of_offset_lt (by omega)
  · intro p hp q hq same
    rw [← (place hp).2, same, (place hq).2]
  · intro l hl
    obtain ⟨within, offset⟩ := place hl.offset_le_length
    exact ⟨_, hl.offset_le_length, within.eq_of_offset_eq hl offset⟩

/-- A line feed is the last character of its line, an empty line has one place, and a span past the
end is reported at the end. -/
theorem locations_number_offsets_around_feeds :
    let source := Text.ofString "ab\n\nc"
    let past : Diagnostic := (Span.point 9).diagnostic none
    past.noteIn source = "At position 5 (line 3, column 2)" ∧
      (2 < 3 ∧ 3 ≤ source.length) ∧
      (Location.ofOffset source 2).Before (Location.ofOffset source 3) ∧
      Location.ofOffset source 2 = ⟨1, 3⟩ ∧ Location.ofOffset source 3 = ⟨2, 1⟩ := by
  intro source past
  have inside : 2 < 3 ∧ 3 ≤ source.length := by decide
  exact ⟨((locations_number_offsets source).1 past).1.trans (by decide), inside,
    (locations_number_offsets source).2.1 2 3 inside.1 inside.2, by decide, by decide⟩

end Backtrack
