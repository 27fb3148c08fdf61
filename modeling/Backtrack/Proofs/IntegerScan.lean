import Backtrack.Proofs.Figures
import Backtrack.Proofs.Scanning

/-!
# Integers as a scan

The grammar of integers as a function of the text alone: an optional minus, a mark where no base is
given, the longest run of the figures of the base, and no letter or underscore right after it.  A
run that is too long to be converted raises a fault.  The parser of integers comes to exactly what
the scan comes to, errors and their places included.

* `Lexeme.scanInteger`: the scan.
* `Lexeme.exists_finds_integer`: the parser of each supported base finds what the scan says.
* `integers_follow_scan`: what that means for the stream.
-/

namespace Backtrack

open CodePoint (ofChar)
open Numeral (exceedsLimit isFigure number)

namespace Lexeme

/-! ### The scan -/

/-- How a numeral announces its base. -/
structure Mark where
  text : Text
  base : Nat
  /-- How messages name the base. -/
  name : String

def Mark.binary : Mark := ⟨.ofChars ['0', 'b'], 2, "binary"⟩

def Mark.octal : Mark := ⟨.ofChars ['0', 'o'], 8, "octal"⟩

def Mark.hexadecimal : Mark := ⟨.ofChars ['0', 'x'], 16, "hexadecimal"⟩

/-- The failure of a mark at `i` without a figure after it. -/
def Mark.unfinished (m : Mark) (i : Nat) : Upshot :=
  .failed (.located i m.text.length
    (.ofString "Expected a " ++ .ofString m.name ++ .ofString " digit after " ++ m.text ++
      .ofString "."))

/-- The mark that a text starts with. -/
def mark? (t : Text) : Option Mark :=
  [Mark.binary, Mark.octal, Mark.hexadecimal].find? fun m => m.text <+: t

/-- Letters and the underscore, which may not follow a number. -/
def isWordStart (c : CodePoint) : Bool :=
  'A'.toNat ≤ c.val ∧ c.val ≤ 'Z'.toNat ∨ c.val = '_'.toNat ∨ 'a'.toNat ≤ c.val ∧ c.val ≤ 'z'.toNat

/-- The number of the figures from `i` on with its sign, `missing` if there are none.  Too many of
them raise a fault, whatever follows. -/
def scanFigures (base : Nat) (negative : Bool) (missing : Upshot) (t : Text) (i : Nat) : Upshot :=
  let run := (t.drop i).takeWhile (isFigure base)
  let stop := i + run.length
  if run = [] then missing
  else if exceedsLimit base run.length then .raised (.tooManyDigits run.length)
  else
    match t[stop]?.filter isWordStart with
    | some c => .failed (.located stop 1
        (.ofString "Unexpected character `" ++ [c] ++ .ofString "` after a number."))
    | none => .matched (.int (if negative then -number base run else number base run)) stop

/-- The numeral at `i` in a base, or in the base that its mark announces if the base is zero. -/
def scanUnsigned (base : Nat) (negative : Bool) (t : Text) (i : Nat) : Upshot :=
  if base ≠ 0 then scanFigures base negative .declined t i
  else
    match mark? (t.drop i) with
    | some m => scanFigures m.base negative (m.unfinished i) t (i + m.text.length)
    | none => scanFigures 10 negative .declined t i

/-- The integer at `i`, with the base as for unsigned numerals. -/
def scanInteger (base : Nat) (t : Text) (i : Nat) : Upshot :=
  let negative : Bool := t[i]? = some (ofChar '-')
  scanUnsigned base negative t (if negative then i + 1 else i)

end Lexeme

/-! ### Unsigned numerals -/

/-- The number that a run of figures makes, unless they are too many. -/
def Numeral.converted (base : Nat) (run : Text) : Except Fault Value :=
  if exceedsLimit base run.length then .error (.tooManyDigits run.length)
  else .ok (.int (number base run))

/-- The number of the figures from `i` on. -/
def Upshot.ofFigures (base : Nat) (t : Text) (i : Nat) : Upshot :=
  let run := (t.drop i).takeWhile (isFigure base)
  if run = [] then .declined else .ofExcept (i + run.length) (Numeral.converted base run)

theorem Upshot.exists_of_ofFigures {base i j : Nat} {t : Text} {v : Value}
    (h : Upshot.ofFigures base t i = .matched v j) : ∃ n, v = .int n := by
  unfold Upshot.ofFigures Numeral.converted at h
  dsimp only at h
  split at h
  · cases h
  split at h
  · cases h
  · cases h
    exact ⟨_, rfl⟩

namespace Lexeme

section Numerals

variable {g : Grammar} {t : Text} {depth i : Nat} {r : Radix} {p : Parser}

theorem Radix.number_chars {run : Text} (digits : ∀ c ∈ run, isFigure r.base c = true)
    (filled : run ≠ []) :
    r.number (.list (run.map Value.char)) = Numeral.converted r.base run := by
  rw [Radix.number, Value.joinedText_chars, Numeral.converted]
  simp only [bind, Except.bind, Numeral.read?_eq_number digits filled]

theorem Radix.finds_numeral (hr : r.Exact) :
    r.numeral.Finds g (.ofText t) depth i (.ofFigures r.base t i) :=
  Parser.finds_map_many1 (w := Numeral.converted r.base) hr
    fun _ filled figures => Radix.number_chars figures filled

/-- The numeral that a mark at `i` announces. -/
def Mark.upshot (m : Mark) (t : Text) (i : Nat) : Upshot :=
  if m.text <+: t.drop i then
    (Upshot.ofFigures m.base t (i + m.text.length)).orElse (m.unfinished i)
  else .declined

theorem Radix.finds_marked (hr : r.Exact) {m : Mark} (base : r.base = m.base)
    (name : r.name = m.name) :
    (r.marked m.text).Finds g (.ofText t) depth i (m.upshot t i) := by
  have required (j : Nat) (hj : j = i + m.text.length) :
      (Parser.require r.numeral (reportFrom m.text.length
        (.ofString "Expected a " ++ .ofString r.name ++ .ofString " digit after " ++ m.text ++
          .ofString "."))).Finds g (.ofText t) depth j
        ((Upshot.ofFigures m.base t j).orElse (m.unfinished i)) := by
    rw [hj, name, ← base]
    exact Parser.finds_require (Radix.finds_numeral hr) fun _ => reportFrom_point ..
  have found : (r.marked m.text).Finds g (.ofText t) depth i _ :=
    Parser.finds_second (Parser.finds_word m.text)
      fun v j hv => required j (Upshot.ofWord_eq_matched hv).2
  rwa [Upshot.ofWord_andThen] at found

/-- The unsigned numeral at `i`, in any base if the base is zero. -/
def unsignedUpshot (base : Nat) (t : Text) (i : Nat) : Upshot :=
  if base ≠ 0 then .ofFigures base t i
  else
    match mark? (t.drop i) with
    | some m => m.upshot t i
    | none => .ofFigures 10 t i

theorem Mark.upshot_orElse (m : Mark) (x : Upshot) :
    (m.upshot t i).orElse x = if m.text <+: t.drop i then m.upshot t i else x := by
  unfold Mark.upshot
  split
  · cases Upshot.ofFigures m.base t (i + m.text.length) <;> rfl
  · rfl

theorem finds_anyNumeral :
    anyNumeral.Finds g (.ofText t) depth i (unsignedUpshot 0 t i) := by
  have alternatives : List.Forall₂ (fun p x => Parser.Finds g (.ofText t) depth p i x)
      [Radix.binary.marked Mark.binary.text, Radix.octal.marked Mark.octal.text,
        Radix.hexadecimal.marked Mark.hexadecimal.text, Radix.decimal.numeral]
      [Mark.binary.upshot t i, Mark.octal.upshot t i, Mark.hexadecimal.upshot t i,
        .ofFigures 10 t i] :=
    .cons (Radix.finds_marked Radix.exact_binary rfl rfl)
      (.cons (Radix.finds_marked Radix.exact_octal rfl rfl)
        (.cons (Radix.finds_marked Radix.exact_hexadecimal rfl rfl)
          (.cons (Radix.finds_numeral Radix.exact_decimal) .nil)))
  have found : anyNumeral.Finds g (.ofText t) depth i (Upshot.first _) :=
    Parser.finds_choice alternatives
  -- a mark that stands is decisive: what comes after it matches or fails
  simp only [Upshot.first_cons, Upshot.first_nil, Upshot.orElse_declined_right,
    Mark.upshot_orElse] at found
  rw [unsignedUpshot, if_neg (not_not.2 rfl), mark?]
  simp only [List.find?_cons, List.find?_nil]
  by_cases binary : Mark.binary.text <+: t.drop i
  · simpa only [binary, if_true, decide_true] using found
  by_cases octal : Mark.octal.text <+: t.drop i
  · simpa only [binary, octal, if_false, if_true, decide_true, decide_false] using found
  by_cases hexadecimal : Mark.hexadecimal.text <+: t.drop i
  · simpa only [binary, octal, hexadecimal, if_false, if_true, decide_true, decide_false]
      using found
  · simpa only [binary, octal, hexadecimal, if_false, decide_false] using found

/-! ### Signs and what follows -/

/-- A number with its sign. -/
def withSign (negative : Bool) : Value → Value
  | .int n => .int (if negative then -n else n)
  | v => v

/-- A number at `j` must not go on as a word. -/
def ending (t : Text) (j : Nat) : Upshot :=
  match t[j]?.filter isWordStart with
  | some c => .failed (.located j 1
      (.ofString "Unexpected character `" ++ [c] ++ .ofString "` after a number."))
  | none => .matched .nothing j

theorem contains_identifierStart (c : CodePoint) :
    Text.Class.identifierStart.contains c = isWordStart c := by
  rw [Bool.eq_iff_iff]
  simp [Text.Class.identifierStart, Text.Class.uppercase, Text.Class.lowercase,
    CodePoint.mem_interval, isWordStart, Fin.ext_iff]

theorem finds_noLetterAfter (j : Nat) : noLetterAfter.Finds g (.ofText t) depth j (ending t j) := by
  have found : noLetterAfter.Finds g (.ofText t) depth j _ :=
    Parser.finds_forbid (Parser.finds_charOf Text.Class.identifierStart)
      (e := fun v _ => .located j 1
        (.ofString "Unexpected character `" ++ v.display ++ .ofString "` after a number."))
      fun v k hv => by
        obtain ⟨c, -, -, rfl, rfl⟩ := Upshot.ofItem_eq_matched hv
        exact report_upTo_succ _ j
  rw [funext contains_identifierStart] at found
  unfold Upshot.ofItem at found
  unfold ending
  cases hc : t[j]? with
  | none =>
    rw [hc] at found
    exact found
  | some c =>
    rw [hc] at found
    dsimp only at found
    by_cases start : isWordStart c = true
    · rw [if_pos start] at found
      rw [Option.filter_some_pos start]
      exact found
    · rw [if_neg start] at found
      rw [Option.filter_some_neg (Bool.eq_false_iff.2 start)]
      exact found

theorem finds_signed {x : Nat → Upshot} (hp : ∀ j, p.Finds g (.ofText t) depth j (x j)) :
    (signed p).Finds g (.ofText t) depth i
      (if t[i]? = some (ofChar '-') then
        (x (i + 1)).output fun v => .tuple [.text (.ofChars ['-']), v]
      else (x i).output fun v => .tuple [.nothing, v]) := by
  have found : (signed p).Finds g (.ofText t) depth i _ :=
    Parser.finds_seq (Parser.finds_optional (Parser.finds_word _)) fun v j _ => hp j
  have minus : Upshot.ofWord (.ofChars ['-']) t i = _ := Upshot.ofWord_singleton (ofChar '-') t i
  rw [minus] at found
  split
  · rename_i negative
    rwa [if_pos negative] at found
  · rename_i positive
    rwa [if_neg positive] at found

theorem scanFigures_eq {base : Nat} {missing : Upshot} (none : ∀ v j, missing ≠ .matched v j)
    (negative : Bool) :
    scanFigures base negative missing t i =
      (((Upshot.ofFigures base t i).orElse missing).output (withSign negative)).andThen fun v j =>
        (ending t j).andThen fun _ _ => .matched v j := by
  unfold scanFigures Upshot.ofFigures Numeral.converted
  dsimp only
  split
  · rw [Upshot.orElse_declined, Upshot.output_of_unmatched _ none]
    cases missing
    case matched v j => exact absurd rfl (none v j)
    all_goals rfl
  split
  · rfl
  · simp only [Upshot.ofExcept_ok, Upshot.orElse_matched, Upshot.output_matched,
      Upshot.andThen_matched, ending, withSign]
    split <;> rfl

theorem exists_of_unsignedUpshot {base j k : Nat} {v : Value}
    (h : unsignedUpshot base t j = .matched v k) : ∃ n, v = .int n := by
  unfold unsignedUpshot at h
  split at h
  · exact Upshot.exists_of_ofFigures h
  split at h
  · unfold Mark.upshot at h
    split at h
    · exact Upshot.exists_of_ofFigures (Upshot.eq_matched_of_orElse_failed h)
    · cases h
  · exact Upshot.exists_of_ofFigures h

/-- What is read of a sign. -/
def signValue (negative : Bool) : Value := if negative then .text (.ofChars ['-']) else .nothing

/-- The sign of a number is read before it; how both make a number is left open. -/
theorem finds_map_signed {f : Value → Except Fault Value} {x : Nat → Upshot}
    {y : Bool → Nat → Upshot} (hp : ∀ j, p.Finds g (.ofText t) depth j (x j))
    (hf : ∀ negative j, (signed p).Finds g (.ofText t) depth i
        ((x j).output fun v => .tuple [signValue negative, v]) →
      (Parser.map (signed p) f).Finds g (.ofText t) depth i (y negative j)) :
    (Parser.map (signed p) f).Finds g (.ofText t) depth i
      (let negative := decide (t[i]? = some (ofChar '-'))
      y negative (if negative then i + 1 else i)) := by
  have found := finds_signed (i := i) hp
  by_cases negative : t[i]? = some (ofChar '-')
  · rw [if_pos negative] at found
    simp only [negative, decide_true, if_true]
    exact hf true (i + 1) found
  · rw [if_neg negative] at found
    simp only [negative, decide_false]
    exact hf false i found

theorem finds_map_applySign {x : Upshot} {negative : Bool} {q : Parser}
    (found : q.Finds g (.ofText t) depth i (x.output fun v => .tuple [signValue negative, v]))
    (number : ∀ v k, x = .matched v k → ∃ n, v = .int n) :
    (Parser.map q applySign).Finds g (.ofText t) depth i (x.output (withSign negative)) := by
  cases x
  case matched v k =>
    obtain ⟨n, rfl⟩ := number v k rfl
    exact Parser.finds_map_matched found (by cases negative <;> rfl)
  all_goals exact Parser.finds_map_unmatched found nofun

/-- The sign of an integer changes it. -/
theorem finds_signedNumber {x : Nat → Upshot} (hp : ∀ j, p.Finds g (.ofText t) depth j (x j))
    (number : ∀ j v k, x j = .matched v k → ∃ n, v = .int n) :
    (Parser.map (signed p) applySign).Finds g (.ofText t) depth i
      (let negative := decide (t[i]? = some (ofChar '-'))
      (x (if negative then i + 1 else i)).output (withSign negative)) :=
  finds_map_signed (y := fun negative j => (x j).output (withSign negative)) hp
    fun _ j found => finds_map_applySign found (number j)

theorem scanUnsigned_eq (base : Nat) (negative : Bool) :
    scanUnsigned base negative t i =
      ((unsignedUpshot base t i).output (withSign negative)).andThen fun v j =>
        (ending t j).andThen fun _ _ => .matched v j := by
  have declined : ∀ v j, Upshot.declined ≠ .matched v j := nofun
  unfold scanUnsigned unsignedUpshot
  by_cases given : base ≠ 0
  · rw [if_pos given, if_pos given, scanFigures_eq declined, Upshot.orElse_declined_right]
  · rw [if_neg given, if_neg given]
    cases hm : mark? (t.drop i) with
    | none =>
      dsimp only
      rw [scanFigures_eq declined, Upshot.orElse_declined_right]
    | some m =>
      have stands : m.text <+: t.drop i := by simpa using List.find?_some hm
      have unfinished : ∀ v j, m.unfinished i ≠ .matched v j := fun _ _ h => by cases h
      dsimp only
      rw [Mark.upshot, if_pos stands, scanFigures_eq unfinished]

theorem finds_integerOf {base : Nat}
    (hp : ∀ j, p.Finds g (.ofText t) depth j (unsignedUpshot base t j)) :
    (integerOf p).Finds g (.ofText t) depth i (scanInteger base t i) := by
  rw [scanInteger, scanUnsigned_eq]
  exact Parser.finds_lookingAt (finds_signedNumber hp fun _ _ _ => exists_of_unsignedUpshot)
    fun _ j _ => finds_noLetterAfter j

/-- The parser of integers of each supported base finds what the scan says. -/
theorem exists_finds_integer {base : Nat} (h : base ∈ [0, 2, 8, 10, 16]) :
    ∃ p, integer base = .ok p ∧
      ∀ g t depth i, p.Finds g (.ofText t) depth i (scanInteger base t i) := by
  simp only [List.mem_cons, List.not_mem_nil, or_false] at h
  rcases h with rfl | rfl | rfl | rfl | rfl
  · exact ⟨_, rfl, fun _ _ _ _ => finds_integerOf fun _ => finds_anyNumeral⟩
  · exact ⟨_, rfl, fun _ _ _ _ => finds_integerOf fun _ => Radix.finds_numeral Radix.exact_binary⟩
  · exact ⟨_, rfl, fun _ _ _ _ => finds_integerOf fun _ => Radix.finds_numeral Radix.exact_octal⟩
  · exact ⟨_, rfl, fun _ _ _ _ => finds_integerOf fun _ => Radix.finds_numeral Radix.exact_decimal⟩
  · exact ⟨_, rfl, fun _ _ _ _ =>
      finds_integerOf fun _ => Radix.finds_numeral Radix.exact_hexadecimal⟩

end Numerals

end Lexeme

/-- The parser of integers of a supported base can be built, and on a stream of a text that stands
anywhere it comes to what the scan from there says.  A match leaves the stream right after the
digits; without one it stays as it was, also where a run of digits is too long to be converted and a
fault is raised. -/
theorem integers_follow_scan {base : Nat} (h : base ∈ [0, 2, 8, 10, 16]) :
    ∃ p, Lexeme.integer base = .ok p ∧
      ∀ (g : Grammar) (t : Text) (depth : Nat) (c : Cursor), c.Placed (.ofText t) →
        (p.runWithin g (.ofText t) depth c).Settles c (Lexeme.scanInteger base t c.position) := by
  obtain ⟨p, built, found⟩ := Lexeme.exists_finds_integer h
  exact ⟨p, built, fun g t depth c hc => (found g t depth c.position).settles hc⟩

/-- Zeros that are too many to be converted. -/
theorem Lexeme.scanInteger_zeros {count : Nat} (many : Numeral.maxDigits < count) :
    Lexeme.scanInteger 10 (List.replicate count (ofChar '0')) 0 =
      .raised (.tooManyDigits count) := by
  have exceeds : exceedsLimit 10 count = true := by simpa [exceedsLimit] using many
  have run : (List.replicate count (ofChar '0')).takeWhile (isFigure 10) =
      List.replicate count (ofChar '0') :=
    List.takeWhile_eq_self_iff.2 fun c hc => by
      rw [List.eq_of_mem_replicate hc]
      rfl
  have filled : List.replicate count (ofChar '0') ≠ [] := by
    rw [Ne, List.replicate_eq_nil_iff]
    omega
  have unsigned : (List.replicate count (ofChar '0'))[0]? ≠ some (ofChar '-') := by
    rw [List.getElem?_replicate]
    split <;> simp [Fin.ext_iff]
  simp only [scanInteger, scanUnsigned, scanFigures, decide_eq_false unsigned, ne_eq,
    OfNat.ofNat_ne_zero, not_false_eq_true, if_true, Bool.false_eq_true, if_false, List.drop_zero,
    run, filled, List.length_replicate, exceeds]

/-- There is a fault, and none of the outcomes of the grammar, where zero is written with more
digits than are converted. -/
theorem integers_are_refused_past_limit :
    ∃ p, Lexeme.integer 10 = .ok p ∧
      let t : Text := List.replicate 4301 (ofChar '0')
      (p.runWithin .empty (.ofText t) 0 .start).ending = .raised (.tooManyDigits 4301) ∧
        ∀ o, (p.runWithin .empty (.ofText t) 0 .start).ending ≠ .answered o := by
  obtain ⟨p, built, found⟩ := @Lexeme.exists_finds_integer 10 (by decide)
  have settles := (found .empty (List.replicate 4301 (ofChar '0')) 0 0).settles
    (Cursor.placed_start _)
  rw [Lexeme.scanInteger_zeros (by decide)] at settles
  exact ⟨p, built, settles.ending, fun o h => by cases settles.ending.symm.trans h⟩

/-- In the middle of a text there are a minus and a mark, and no figure of the base after them. -/
def Text.unfinishedMark : Text := .ofChars ['a', '-', '0', 'x', 'g']

/-- The span of the error is that of the mark. -/
theorem integers_follow_scan_unfinished_mark :
    0 ∈ [0, 2, 8, 10, 16] ∧ (Cursor.point 1).Placed (.ofText Text.unfinishedMark) ∧
      ∃ p, Lexeme.integer 0 = .ok p ∧
        (p.runWithin .empty (.ofText Text.unfinishedMark) 0 (.point 1)).ending =
          .answered (.failed (.located 2 2
            (.ofString "Expected a " ++ .ofString "hexadecimal" ++ .ofString " digit after " ++
              .ofChars ['0', 'x'] ++ .ofString "."))) ∧
        (p.runWithin .empty (.ofText Text.unfinishedMark) 0 (.point 1)).state = .point 1 := by
  have supported : 0 ∈ [0, 2, 8, 10, 16] := by decide
  have placed : (Cursor.point 1).Placed (.ofText Text.unfinishedMark) :=
    Cursor.placed_point (by decide)
  have scan : Lexeme.scanInteger 0 Text.unfinishedMark 1 =
      Lexeme.Mark.hexadecimal.unfinished 2 := rfl
  obtain ⟨p, built, follows⟩ := integers_follow_scan supported
  have settles := follows .empty Text.unfinishedMark 0 (.point 1) placed
  rw [Cursor.position_point, scan] at settles
  exact ⟨supported, placed, p, built, settles.1, settles.2⟩

end Backtrack
