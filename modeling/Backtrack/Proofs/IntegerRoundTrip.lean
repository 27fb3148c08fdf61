import Backtrack.Proofs.IntegerScan

/-!
# Integers are read back

An integer is written with a minus if it is below zero, with the mark of its base where no base is
given, with any number of zeros in front, and with letters of either case.  From every such text the
parser reads the integer back, and stops right after it, unless there are more digits than are
converted in the base.

* `Numeral.digits`: the figures of a number.
* `Lexeme.WritesInteger`: the texts that write an integer.
* `integers_are_read_back`: the law.
-/

namespace Backtrack

open CodePoint (ofChar)
open Numeral (exceedsLimit isFigure figure? Spells)

namespace Numeral

/-- The figures of a number in a base, the most significant one first. -/
def figures (base n : Nat) : List Nat := if n = 0 then [0] else (Nat.digits base n).reverse

theorem figures_ne_nil (base n : Nat) : figures base n ≠ [] := by
  unfold figures
  split
  · exact List.cons_ne_nil 0 []
  · rename_i positive
    rw [Ne, List.reverse_eq_nil_iff]
    exact Nat.digits_ne_nil_iff_ne_zero.2 positive

theorem lt_of_mem_figures {base n d : Nat} (hb : 1 < base) (hd : d ∈ figures base n) :
    d < base := by
  unfold figures at hd
  split at hd
  · rw [List.mem_singleton.1 hd]
    omega
  · exact Nat.digits_lt_base hb (List.mem_reverse.1 hd)

theorem ofDigits_figures (base n : Nat) : Nat.ofDigits base (figures base n).reverse = n := by
  unfold figures
  split
  · rename_i zero
    rw [zero]
    rfl
  · rw [List.reverse_reverse, Nat.ofDigits_digits]

end Numeral

namespace Lexeme

/-- The text writes the integer with so many digits in the base after the mark, zeros in front of it
included, and with letters of either case.  Zero may have a minus. -/
inductive WritesInteger (base : Nat) (mark : Text) : Int → Nat → Text → Prop
  | nonneg (n zeros : Nat) {digits : Text} (spelt : Spells digits (Numeral.figures base n)) :
    WritesInteger base mark n (zeros + digits.length)
      (mark ++ (List.replicate zeros (ofChar '0') ++ digits))
  | neg (n zeros : Nat) {digits : Text} (spelt : Spells digits (Numeral.figures base n)) :
    WritesInteger base mark (-n) (zeros + digits.length)
      (ofChar '-' :: (mark ++ (List.replicate zeros (ofChar '0') ++ digits)))

/-- No number goes on with the text: it is empty, or starts with neither a figure of the base nor a
letter nor an underscore. -/
def Ends (base : Nat) (rest : Text) : Prop :=
  ∀ c, rest.head? = some c → isFigure base c = false ∧ isWordStart c = false

/-- What an integer with so many digits comes to that ends at `stop`. -/
def ofDigits (base count : Nat) (k : Int) (stop : Nat) : Upshot :=
  if exceedsLimit base count then .raised (.tooManyDigits count) else .matched (.int k) stop

section Runs

variable {base n zeros i : Nat} {negative : Bool} {t digits run rest : Text}

/-- A run of figures that makes the number. -/
structure IsRun (base n : Nat) (run : Text) : Prop where
  filled : run ≠ []
  figures : ∀ c ∈ run, isFigure base c = true
  number : Numeral.number base run = n

theorem isRun_of_spells (hb : 1 < base) (spelt : Spells digits (Numeral.figures base n))
    (zeros : Nat) : IsRun base n (List.replicate zeros (ofChar '0') ++ digits) := by
  have zero : figure? (ofChar '0') = some 0 := rfl
  have row := (Numeral.spells_replicate zero zeros).append spelt
  refine ⟨?_, ?_, ?_⟩
  · intro empty
    have none := (List.append_eq_nil_iff.1 empty).2
    have length := spelt.length_eq
    rw [none] at length
    exact Numeral.figures_ne_nil base n (List.eq_nil_of_length_eq_zero length.symm)
  · refine fun c hc => row.isFigure (fun d hd => ?_) hc
    rcases List.mem_append.1 hd with hd | hd
    · rw [List.eq_of_mem_replicate hd]
      omega
    · exact Numeral.lt_of_mem_figures hb hd
  · rw [row.number_eq, List.reverse_append, List.reverse_replicate,
      Nat.ofDigits_append_replicate_zero, Numeral.ofDigits_figures]

theorem scanFigures_run {missing : Upshot} (h : t.drop i = run ++ rest) (hrun : IsRun base n run)
    (hrest : Ends base rest) :
    scanFigures base negative missing t i =
      ofDigits base run.length (if negative then -n else n) (i + run.length) := by
  have longest : (t.drop i).takeWhile (isFigure base) = run := by
    rw [h]
    exact takeWhile_append_of_head hrun.figures fun c hc => (hrest c hc).1
  have after : t[i + run.length]? = rest.head? := by
    rw [← List.head?_drop, ← List.drop_drop, h, List.drop_left]
  have closed : rest.head?.filter isWordStart = none := by
    rw [Option.filter_eq_none_iff]
    exact fun c hc => Bool.eq_false_iff.1 (hrest c hc).2
  unfold scanFigures ofDigits
  simp only [longest, after, closed, if_neg hrun.filled, hrun.number]

/-- A run of decimal digits is not taken for a mark, whose letter is neither in it nor after it. -/
theorem mark?_run (hrun : IsRun 10 n run) (hrest : Ends 10 rest) : mark? (run ++ rest) = none := by
  have second : ∀ m ∈ [Mark.binary, Mark.octal, Mark.hexadecimal], ∃ a l, m.text = [a, l] ∧
      isFigure 10 l = false ∧ isWordStart l = true := by
    simp only [List.forall_mem_cons]
    exact ⟨⟨_, _, rfl, rfl, rfl⟩, ⟨_, _, rfl, rfl, rfl⟩, ⟨_, _, rfl, rfl, rfl⟩, nofun⟩
  rw [mark?, List.find?_eq_none]
  intro m hm
  obtain ⟨a, l, text, figure, word⟩ := second m hm
  rw [decide_eq_true_eq, text]
  intro start
  obtain ⟨c, run, rfl⟩ := List.exists_cons_of_ne_nil hrun.filled
  rw [List.cons_append, List.cons_prefix_cons, List.singleton_prefix_iff_head?_eq_some] at start
  cases run with
  | nil =>
    have closed := (hrest l start.2).2
    rw [word] at closed
    cases closed
  | cons d run =>
    obtain rfl : d = l := Option.some.inj start.2
    have digit := hrun.figures d (by simp)
    rw [figure] at digit
    cases digit

/-! ### The scan of a written integer -/

theorem scanUnsigned_given (hb : base ≠ 0) (h : t.drop i = run ++ rest) (hrun : IsRun base n run)
    (hrest : Ends base rest) :
    scanUnsigned base negative t i =
      ofDigits base run.length (if negative then -n else n) (i + run.length) := by
  rw [scanUnsigned, if_pos hb, scanFigures_run h hrun hrest]

theorem scanUnsigned_marked {m : Mark} (hm : mark? (t.drop i) = some m)
    (h : t.drop i = m.text ++ (run ++ rest)) (hrun : IsRun m.base n run)
    (hrest : Ends m.base rest) :
    scanUnsigned 0 negative t i =
      ofDigits m.base run.length (if negative then -n else n) (i + (m.text ++ run).length) := by
  have after : t.drop (i + m.text.length) = run ++ rest := by
    rw [← List.drop_drop, h, List.drop_left]
  rw [scanUnsigned, if_neg (not_not.2 rfl), hm]
  dsimp only
  rw [scanFigures_run after hrun hrest, List.length_append, Nat.add_assoc]

theorem scanUnsigned_decimal (h : t.drop i = run ++ rest) (hrun : IsRun 10 n run)
    (hrest : Ends 10 rest) :
    scanUnsigned 0 negative t i =
      ofDigits 10 run.length (if negative then -n else n) (i + run.length) := by
  have unmarked : mark? (t.drop i) = none := by
    rw [h]
    exact mark?_run hrun hrest
  rw [scanUnsigned, if_neg (not_not.2 rfl), unmarked]
  exact scanFigures_run h hrun hrest

/-- The bases with the marks that announce them; decimal numerals have none. -/
def announced : List (Nat × Text) :=
  [(2, .ofChars ['0', 'b']), (8, .ofChars ['0', 'o']), (10, []), (16, .ofChars ['0', 'x'])]

/-- Without a base given, the mark tells it. -/
theorem scanUnsigned_announced {mark : Text} (hb : (base, mark) ∈ announced)
    (h : t.drop i = mark ++ (run ++ rest)) (hrun : IsRun base n run) (hrest : Ends base rest) :
    scanUnsigned 0 negative t i =
      ofDigits base run.length (if negative then -n else n) (i + (mark ++ run).length) := by
  have marked {m : Mark} (hm : ∀ u, mark? (m.text ++ u) = some m)
      (h : t.drop i = m.text ++ (run ++ rest)) (hrun : IsRun m.base n run)
      (hrest : Ends m.base rest) :
      scanUnsigned 0 negative t i =
        ofDigits m.base run.length (if negative then -n else n) (i + (m.text ++ run).length) :=
    scanUnsigned_marked (by rw [h, hm]) h hrun hrest
  simp only [announced, List.mem_cons, List.not_mem_nil, or_false, Prod.mk.injEq] at hb
  rcases hb with ⟨rfl, rfl⟩ | ⟨rfl, rfl⟩ | ⟨rfl, rfl⟩ | ⟨rfl, rfl⟩
  · exact marked (m := .binary) (fun _ => rfl) h hrun hrest
  · exact marked (m := .octal) (fun _ => rfl) h hrun hrest
  · exact scanUnsigned_decimal h hrun hrest
  · exact marked (m := .hexadecimal) (fun _ => rfl) h hrun hrest

/-- No mark and no figure is a minus. -/
theorem head?_ne_minus {mark : Text} (hmark : mark = [] ∨ mark.head? = some (ofChar '0'))
    (hrun : IsRun base n run) : (mark ++ (run ++ rest)).head? ≠ some (ofChar '-') := by
  intro minus
  rcases hmark with rfl | zero
  · obtain ⟨c, run, rfl⟩ := List.exists_cons_of_ne_nil hrun.filled
    obtain rfl : c = ofChar '-' := Option.some.inj minus
    obtain ⟨d, hd, -⟩ := Numeral.isFigure_iff.1 (hrun.figures (ofChar '-') List.mem_cons_self)
    cases hd
  · obtain ⟨mark, rfl⟩ := List.head?_eq_some_iff.1 zero
    exact absurd (Option.some.inj minus) (by decide)

/-- Once unsigned numerals after the mark are read, so is the integer. -/
theorem scanInteger_of_unsigned {mark w : Text} {given count : Nat} {k : Int} (hb : 1 < base)
    (hmark : mark = [] ∨ mark.head? = some (ofChar '0'))
    (unsigned : ∀ negative n i run, IsRun base n run → t.drop i = mark ++ (run ++ rest) →
      scanUnsigned given negative t i =
        ofDigits base run.length (if negative then -n else n) (i + (mark ++ run).length))
    (hw : WritesInteger base mark k count w) (h : t.drop i = w ++ rest) :
    scanInteger given t i = ofDigits base count k (i + w.length) := by
  have first : t[i]? = (w ++ rest).head? := by rw [← List.head?_drop, h]
  unfold scanInteger
  cases hw with
  | nonneg n zeros spelt =>
    have hrun := isRun_of_spells hb spelt zeros
    rw [List.append_assoc] at h first
    have plain : decide (t[i]? = some (ofChar '-')) = false := by
      rw [first, decide_eq_false_iff_not]
      exact head?_ne_minus hmark hrun
    simp only [plain]
    refine (unsigned false n i _ hrun h).trans ?_
    rw [List.length_append, List.length_replicate]
    rfl
  | @neg n zeros digits spelt =>
    have hrun := isRun_of_spells hb spelt zeros
    have minus : decide (t[i]? = some (ofChar '-')) = true := by
      rw [first, decide_eq_true_eq]
      rfl
    have after : t.drop (i + 1) =
        mark ++ (List.replicate zeros (ofChar '0') ++ digits ++ rest) := by
      rw [← List.drop_drop, h, List.cons_append, List.drop_one, List.tail_cons, List.append_assoc]
    simp only [minus, if_true]
    rw [unsigned true n (i + 1) _ hrun after, List.length_cons, Nat.add_assoc, Nat.add_comm 1,
      @List.length_append _ (List.replicate zeros _), List.length_replicate]
    rfl

/-- Whether the integer is read depends on the number of digits alone. -/
theorem reads_or_breaks_off {p : Parser} {w : Text} {count : Nat} {k : Int}
    (h : p.ComesTo w (fun i => ofDigits base count k (i + w.length)) rest) :
    (exceedsLimit base count = false → p.Reads w (.int k) rest) ∧
      (exceedsLimit base count = true → p.BreaksOff w (.tooManyDigits count) rest) := by
  unfold ofDigits at h
  constructor
  · intro within
    rwa [funext fun i => if_neg (Bool.eq_false_iff.1 within)] at h
  · intro exceeds
    rwa [funext fun i => if_pos exceeds] at h

theorem exceedsLimit_iff {count : Nat} (listed : base ∈ [2, 8, 10, 16]) :
    exceedsLimit base count = true ↔ base = 10 ∧ Numeral.maxDigits < count := by
  simp only [List.mem_cons, List.not_mem_nil, or_false] at listed
  rcases listed with rfl | rfl | rfl | rfl <;> simp [exceedsLimit]

end Runs

end Lexeme

/-- In front of a text that no number goes on with, the parser of a base reads every integer from
the texts that write it, and the parser for any base reads it from the texts that write it with the
mark of the base.  Both break off where there are more digits than are converted, which depends on
the base and on the number of digits alone; in the binary, octal and hexadecimal base there never
are. -/
theorem integers_are_read_back {base : Nat} {mark rest : Text}
    (hb : (base, mark) ∈ Lexeme.announced) (hrest : Lexeme.Ends base rest) (n : Int) :
    (∀ count, Numeral.exceedsLimit base count = true ↔ base = 10 ∧ Numeral.maxDigits < count) ∧
    (∃ p, Lexeme.integer base = .ok p ∧ ∀ count w, Lexeme.WritesInteger base [] n count w →
      (Numeral.exceedsLimit base count = false → p.Reads w (.int n) rest) ∧
        (Numeral.exceedsLimit base count = true → p.BreaksOff w (.tooManyDigits count) rest)) ∧
    ∃ p, Lexeme.integer 0 = .ok p ∧ ∀ count w, Lexeme.WritesInteger base mark n count w →
      (Numeral.exceedsLimit base count = false → p.Reads w (.int n) rest) ∧
        (Numeral.exceedsLimit base count = true → p.BreaksOff w (.tooManyDigits count) rest) := by
  have supported : base ∈ [2, 8, 10, 16] ∧ (mark = [] ∨ mark.head? = some (ofChar '0')) := by
    simp only [Lexeme.announced, List.mem_cons, List.not_mem_nil, or_false, Prod.mk.injEq] at hb
    rcases hb with ⟨rfl, rfl⟩ | ⟨rfl, rfl⟩ | ⟨rfl, rfl⟩ | ⟨rfl, rfl⟩ <;> decide
  obtain ⟨listed, hmark⟩ := supported
  have two : 1 < base := by
    simp only [List.mem_cons, List.not_mem_nil, or_false] at listed
    omega
  obtain ⟨given, hgiven, found⟩ := Lexeme.exists_finds_integer (List.mem_cons_of_mem 0 listed)
  have zero : 0 ∈ [0, 2, 8, 10, 16] := List.mem_cons_self
  obtain ⟨any, hany, foundAny⟩ := Lexeme.exists_finds_integer zero
  refine ⟨fun count => Lexeme.exceedsLimit_iff listed, ⟨given, hgiven, fun count w hw => ?_⟩,
    any, hany, fun count w hw => ?_⟩
  · exact Lexeme.reads_or_breaks_off (Parser.comesTo_of_finds found fun _ _ h =>
      Lexeme.scanInteger_of_unsigned two (.inl rfl)
        (fun _ _ _ _ hrun h => Lexeme.scanUnsigned_given (by omega) h hrun hrest) hw h)
  · exact Lexeme.reads_or_breaks_off (Parser.comesTo_of_finds foundAny fun _ _ h =>
      Lexeme.scanInteger_of_unsigned two hmark
        (fun _ _ _ _ hrun h => Lexeme.scanUnsigned_announced hb h hrun hrest) hw h)

/-- A minus, the mark of hexadecimals, a zero in front and both cases; a bracket follows. -/
theorem integers_are_read_back_mixed_case :
    (16, .ofChars ['0', 'x']) ∈ Lexeme.announced ∧ Lexeme.Ends 16 (.ofChars [')']) ∧
      Lexeme.WritesInteger 16 (.ofChars ['0', 'x']) (-255) 3
        (.ofChars ['-', '0', 'x', '0', 'f', 'F']) ∧
      ∃ p, Lexeme.integer 0 = .ok p ∧
        p.Reads (.ofChars ['-', '0', 'x', '0', 'f', 'F']) (.int (-255)) (.ofChars [')']) := by
  have announced : (16, Text.ofChars ['0', 'x']) ∈ Lexeme.announced := by decide
  have ends : Lexeme.Ends 16 (.ofChars [')']) := fun c hc => by
    obtain rfl : ofChar ')' = c := Option.some.inj hc
    decide
  have spelt : Spells (.ofChars ['f', 'F']) (Numeral.figures 16 255) := by
    simp [Numeral.figures]
    rfl
  have written : Lexeme.WritesInteger 16 (.ofChars ['0', 'x']) (-255) 3
      (.ofChars ['-', '0', 'x', '0', 'f', 'F']) := .neg 255 1 spelt
  obtain ⟨-, -, p, built, reads⟩ := integers_are_read_back announced ends (-255)
  exact ⟨announced, ends, written, p, built, (reads _ _ written).1 rfl⟩

/-- Not every integer is read back from every text that writes it: zero is not from one zero and
thousands of zeros in front of it. -/
theorem integers_not_always_read_back :
    ¬∀ p, Lexeme.integer 10 = .ok p → ∀ count w, Lexeme.WritesInteger 10 [] 0 count w →
      p.Reads w (.int 0) [] := by
  intro always
  obtain ⟨p, built, found⟩ := @Lexeme.exists_finds_integer 10 (by decide)
  have spelt : Spells (.ofChars ['0']) (Numeral.figures 10 0) := rfl
  have reads := always p built _ _ (.nonneg 0 4300 spelt)
  have zeros : List.replicate 4300 (ofChar '0') ++ Text.ofChars ['0'] =
      List.replicate 4301 (ofChar '0') := List.replicate_succ'.symm
  have scanned := (found .empty (List.replicate 4301 (ofChar '0')) 0 0).settles
    (Cursor.placed_start _)
  rw [Lexeme.scanInteger_zeros (by decide)] at scanned
  have read := (reads .empty [] 0 .start (Cursor.placed_start _) rfl).ending
  simp only [List.nil_append, List.append_nil, zeros] at read
  cases scanned.ending.symm.trans read

end Backtrack
