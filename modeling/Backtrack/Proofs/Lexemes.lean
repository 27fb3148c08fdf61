import Mathlib.Data.Set.List
import Backtrack.Lexeme.Quoted
import Backtrack.Lexeme.Real
import Backtrack.Lexeme.Word
import Backtrack.Proofs.Answers
import Backtrack.Proofs.IntegerScan
import Backtrack.Proofs.Numerals
import Backtrack.Proofs.QuotedScan

/-!
# Lexical rules answer on a text

The functions inside the lexical rules are partial: they read numerals, make code points, join texts
and grow spans backwards.  On a text none of them is ever given what it refuses, because of the
class that the digits were taken from, of the number of items that a mark has just read, and of the
length of a repetition.  Nor does a repetition match without reading, whatever the quotes and
sequences are.  Only decimal integers can have more digits than are converted.

* `Value.CharOf`, `Value.TextOf`: the outputs of the rules, and what the functions do with them.
* one rule of the judgement `Parser.Answers` for each lexical rule.
* `Lexeme.General`: the rules with their options.
* `Lexeme.scanInteger_cases`: where an integer has too many digits.
* `lexical_rules_answer_within_limit`: the law.
-/

namespace Backtrack

open CodePoint (ofChar)
open Numeral (exceedsLimit isFigure)

/-! ### Outputs -/

namespace Value

/-- The one-item text of a member of the class. -/
def CharOf (group : Text) (v : Value) : Prop := ∃ c ∈ group, v = char c

/-- A text with the property. -/
def TextOf (P : Text → Prop) (v : Value) : Prop := ∃ t, v = text t ∧ P t

/-- Any text. -/
abbrev IsText : Value → Prop := TextOf fun _ => True

/-- Texts can be joined. -/
theorem exists_joined {b : Bounds} {u : Value} (h : u.Listed b IsText) :
    ∃ v, u.joined = .ok v ∧ v.IsText := by
  obtain ⟨vs, rfl, -, -, hvs⟩ := h
  have range : ∀ v ∈ vs, v ∈ Set.range text := fun v hv => by
    obtain ⟨t, rfl, -⟩ := hvs v hv
    exact ⟨t, rfl⟩
  obtain ⟨ts, rfl⟩ : vs ∈ Set.range (List.map text) := by rwa [Set.range_list_map]
  exact ⟨_, joined_of_joinedText (joinedText_texts ts), _, rfl, trivial⟩

/-- The members of a class that were read one by one are joined to a text over that class. -/
theorem exists_joinedText_charOf {b : Bounds} {group : Text} {u : Value}
    (h : u.Listed b (CharOf group)) :
    ∃ t, u.joinedText = .ok t ∧ b.least ≤ t.length ∧ (∀ m, b.most = some m → t.length ≤ m) ∧
      ∀ c ∈ t, c ∈ group := by
  obtain ⟨vs, rfl, least, most, hvs⟩ := h
  have range : ∀ v ∈ vs, v ∈ Set.range char := fun v hv => by
    obtain ⟨c, -, rfl⟩ := hvs v hv
    exact ⟨c, rfl⟩
  obtain ⟨cs, rfl⟩ : vs ∈ Set.range (List.map char) := by rwa [Set.range_list_map]
  refine ⟨cs, joinedText_chars cs, by simpa using least, fun m hm => by simpa using most m hm,
    fun c hc => ?_⟩
  obtain ⟨d, hd, same⟩ := hvs (char c) (List.mem_map_of_mem hc)
  have : c = d := by simpa [char] using same
  exact this ▸ hd

theorem asOptionalText_of_maybe {P : Value → Prop} {Q : Text → Prop} {v : Value} (h : v.Maybe P)
    (hP : ∀ v, P v → v.TextOf Q) : ∃ t, v.asOptionalText = .ok t ∧ (t = [] ∨ Q t) := by
  rcases h with rfl | h
  · exact ⟨[], rfl, .inl rfl⟩
  · obtain ⟨t, rfl, ht⟩ := hP v h
    exact ⟨t, rfl, .inr ht⟩

end Value

open Value (CharOf TextOf IsText Listed)

/-! ### Reading a text -/

section Rules

variable {g : Grammar} {t : Text} {depth n k : Nat} {P : Value → Prop} {p : Parser}

namespace Parser

theorem answers_item : item.Answers g (.ofText t) depth n 1 IsText := by
  intro c hc _
  rw [runWithin, runWith, Cursor.readItem_ofText]
  cases t[c.position]? with
  | none => exact .declined rfl
  | some a => exact .matched rfl ⟨Nat.le_refl _, [a], rfl, trivial⟩

theorem answers_charOf (group : Text) :
    (charOf group).Answers g (.ofText t) depth n 1 (CharOf group) := by
  intro c hc _
  rw [charOf, runWithin, runWith]
  refine Run.Answers.attempt ?_
  rw [Cursor.readMember, Cursor.readItem_ofText]
  cases t[c.fork.position]? with
  | none => exact .declined rfl
  | some a =>
    simp only [Run.reply, Run.andThen, Run.answer, Items.lookup_ofText]
    cases ha : group.contains a with
    | true => exact .matched rfl ⟨Nat.le_refl _, a, List.contains_iff_mem.1 ha, rfl⟩
    | false => exact .declined rfl

theorem answers_word (w : Text) :
    (word w).Answers g (.ofText t) depth n w.length (· = .text w) := by
  have answers : (word w).Answers g (.ofText t) depth n (Items.ofText w).size (· = .text w) :=
    answers_literal rfl (.ofText w) (.text w)
  rwa [Items.size_ofText] at answers

end Parser

/-! ### Errors -/

theorem Lexeme.exists_report (message : Text) (s : Span) :
    ∃ d, report message s = .ok (.diagnostic d) := ⟨_, rfl⟩

/-- A span can be grown over items that lie before it. -/
theorem Lexeme.exists_reportFrom {more : Nat} (message : Text) {s : Span} (h : more ≤ s.start) :
    ∃ d, reportFrom more message s = .ok (.diagnostic d) := by
  have hle := s.start_le_stop
  have grown : s.growBefore more = .ok ⟨s.start - more, s.stop, by omega⟩ := by
    rw [Span.growBefore, Span.make_eq_ok_iff]
    dsimp only
    omega
  rw [reportFrom, grown]
  exact ⟨_, rfl⟩

namespace Lexeme

/-! ### Words -/

theorem answers_blanks : blanks.Answers g (.ofText t) depth n 0 (· = .nothing) :=
  Parser.answers_void (Parser.answers_times (Parser.answers_charOf _) fun _ => Nat.one_pos)

theorem answers_blanks1 : blanks1.Answers g (.ofText t) depth n 0 (· = .nothing) :=
  Parser.answers_void (Parser.answers_times (Parser.answers_charOf _) fun _ => Nat.one_pos)

theorem answers_identifier : identifier.Answers g (.ofText t) depth n 1 IsText := by
  refine Parser.answers_map (Parser.answers_seq (Parser.answers_charOf _)
    (Parser.answers_times (Parser.answers_charOf _) fun _ => Nat.one_pos)) ?_
  rintro _ ⟨_, rest, rfl, ⟨a, -, rfl⟩, hrest⟩
  obtain ⟨w, hw, -⟩ := Value.exists_joinedText_charOf hrest
  refine ⟨.text (a :: w), ?_, a :: w, rfl, trivial⟩
  simp only [spell, hw, bind, Except.bind]
  rfl

theorem answers_keyword (w : Text) :
    (keyword w).Answers g (.ofText t) depth n w.length (· = .text w) :=
  Parser.answers_lookingAt (Parser.answers_word w)
    (Parser.answers_absent (Parser.answers_charOf _))

/-! ### Numbers -/

theorem answers_noLetterAfter : noLetterAfter.Answers g (.ofText t) depth n 0 (· = .nothing) :=
  Parser.answers_forbid (Parser.answers_charOf _) fun s _ _ => exists_report _ s

theorem answers_signed (hp : p.Answers g (.ofText t) depth n k P) :
    (signed p).Answers g (.ofText t) depth n k
      (Value.Pair (Value.Maybe (· = .text (.ofChars ['-']))) P) := by
  have answers := Parser.answers_seq
    (Parser.answers_optional (Parser.answers_word (g := g) (t := t) (n := n) (.ofChars ['-']))) hp
  rwa [Nat.zero_add] at answers

/-- An integer. -/
def IsInt (v : Value) : Prop := ∃ i, v = .int i

/-- What an integer comes to: an integer, or an error that is a diagnostic, or a non-match. -/
inductive IntegerUpshot : Upshot → Prop
  | matched (k : Int) (j : Nat) : IntegerUpshot (.matched (.int k) j)
  | declined : IntegerUpshot .declined
  | failed (d : Diagnostic) : IntegerUpshot (.failed (.diagnostic d))

theorem integerUpshot_scanFigures {base i : Nat} {negative : Bool} {missing : Upshot}
    (h : IntegerUpshot missing)
    (within : exceedsLimit base ((t.drop i).takeWhile (isFigure base)).length = false) :
    IntegerUpshot (scanFigures base negative missing t i) := by
  simp only [scanFigures, within, Bool.false_eq_true, if_false]
  split
  · exact h
  split
  · exact .failed _
  · exact .matched _ _

/-- How many decimal digits stand at `i`, behind a minus if there is one. -/
def decimalsAt (t : Text) (i : Nat) : Nat :=
  ((t.drop (if t[i]? = some (ofChar '-') then i + 1 else i)).takeWhile (isFigure 10)).length

/-- A mark begins with a decimal digit, and goes on with none. -/
theorem length_decimals_of_mark? {u : Text} {m : Mark} (h : mark? u = some m) :
    (u.takeWhile (isFigure 10)).length = 1 := by
  have start : m.text <+: u := by simpa using List.find?_some h
  have listed : m ∈ [Mark.binary, Mark.octal, Mark.hexadecimal] := List.mem_of_find?_eq_some h
  obtain ⟨rest, rfl⟩ := start
  simp only [List.mem_cons, List.not_mem_nil, or_false] at listed
  rcases listed with rfl | rfl | rfl <;> rfl

theorem base_of_mark? {u : Text} {m : Mark} (h : mark? u = some m) : m.base ∈ [2, 8, 16] := by
  have listed : m ∈ [Mark.binary, Mark.octal, Mark.hexadecimal] := List.mem_of_find?_eq_some h
  simp only [List.mem_cons, List.not_mem_nil, or_false] at listed
  rcases listed with rfl | rfl | rfl <;> decide

theorem exceedsLimit_of_mem {base : Nat} (h : base ∈ [2, 8, 16]) (count : Nat) :
    exceedsLimit base count = false := by
  simp only [List.mem_cons, List.not_mem_nil, or_false] at h
  rcases h with rfl | rfl | rfl <;> rfl

theorem exceedsLimit_ten (count : Nat) :
    exceedsLimit 10 count = decide (Numeral.maxDigits < count) := by
  simp [exceedsLimit]

/-- The scan breaks off at too many decimal digits, and comes to an outcome otherwise. -/
theorem scanInteger_cases {base : Nat} (h : base ∈ [0, 2, 8, 10, 16]) (t : Text) (i : Nat) :
    (¬((base = 0 ∨ base = 10) ∧ Numeral.maxDigits < decimalsAt t i) →
      IntegerUpshot (scanInteger base t i)) ∧
    ((base = 0 ∨ base = 10) ∧ Numeral.maxDigits < decimalsAt t i →
      scanInteger base t i = .raised (.tooManyDigits (decimalsAt t i))) := by
  unfold scanInteger decimalsAt
  simp only [decide_eq_true_eq]
  generalize (if t[i]? = some (ofChar '-') then i + 1 else i) = j
  have decimal (negative : Bool) :
      (¬Numeral.maxDigits < ((t.drop j).takeWhile (isFigure 10)).length →
        IntegerUpshot (scanFigures 10 negative .declined t j)) ∧
      (Numeral.maxDigits < ((t.drop j).takeWhile (isFigure 10)).length →
        scanFigures 10 negative .declined t j =
          .raised (.tooManyDigits ((t.drop j).takeWhile (isFigure 10)).length)) := by
    constructor
    · intro within
      refine integerUpshot_scanFigures .declined ?_
      rw [exceedsLimit_ten]
      exact decide_eq_false within
    · intro many
      have filled : (t.drop j).takeWhile (isFigure 10) ≠ [] :=
        List.ne_nil_of_length_pos (by omega)
      simp only [scanFigures, filled, if_false, exceedsLimit_ten, many, decide_true, if_true]
  have power {base : Nat} (hb : base ∈ [2, 8, 16]) (negative : Bool) (missing : Upshot) (k : Nat)
      (hm : IntegerUpshot missing) : IntegerUpshot (scanFigures base negative missing t k) :=
    integerUpshot_scanFigures hm (exceedsLimit_of_mem hb _)
  generalize decide (t[i]? = some (ofChar '-')) = negative
  unfold scanUnsigned
  by_cases given : base ≠ 0
  · rw [if_pos given]
    by_cases ten : base = 10
    · subst ten
      simpa using decimal negative
    · have listed : base ∈ [2, 8, 16] := by
        simp only [List.mem_cons, List.not_mem_nil, or_false] at h ⊢
        omega
      exact ⟨fun _ => power listed negative _ j .declined, fun other => by omega⟩
  · obtain rfl : base = 0 := not_not.1 given
    rw [if_neg given]
    cases hm : mark? (t.drop j) with
    | none => simpa using decimal negative
    | some m =>
      have one := length_decimals_of_mark? hm
      dsimp only
      rw [one]
      exact ⟨fun _ => power (base_of_mark? hm) negative _ _ (.failed _),
        fun other => absurd other.2 (by decide)⟩

/-! ### Decimals -/

/-- A binary64 number. -/
def IsFloat (v : Value) : Prop := ∃ x, v = .float x

/-- A text that is read as a decimal without a sign. -/
def IsUnsigned (w : Text) : Prop :=
  (∃ n, Decimal.readUnsigned? w = some n) ∧ w.head? ≠ some (ofChar '-')

theorem answers_digitRun :
    digitRun.Answers g (.ofText t) depth n 0 (TextOf fun w => w ≠ [] ∧ Decimal.IsDigits w) := by
  refine Parser.answers_map
    (Parser.answers_times (Parser.answers_charOf _) fun _ => Nat.one_pos) fun u hu => ?_
  obtain ⟨w, hw, least, -, digits⟩ := Value.exists_joinedText_charOf hu
  exact ⟨_, Value.joined_of_joinedText hw, w, rfl, List.ne_nil_of_length_pos least, digits⟩

theorem answers_point : point.Answers g (.ofText t) depth n 1 (TextOf (· = [ofChar '.'])) :=
  Parser.Answers.weaken (Parser.answers_word (.ofChars ['.'])) fun _ h => ⟨_, h, rfl⟩

theorem answers_exponent : exponent.Answers g (.ofText t) depth n 1 (TextOf Decimal.IsExponent) := by
  refine Parser.answers_map (Parser.answers_seq (Parser.answers_seq (Parser.answers_charOf _)
    (Parser.answers_optional (Parser.answers_charOf _))) answers_digitRun) ?_
  rintro _ ⟨_, _, rfl, ⟨_, sign, rfl, -, hs⟩, digits, rfl, filled, hd⟩
  obtain ⟨s, hs, signs⟩ := Value.asOptionalText_of_maybe hs
    (Q := fun s => s = [ofChar '+'] ∨ s = [ofChar '-']) fun v hv => by
      obtain ⟨c, hc, rfl⟩ := hv
      refine ⟨[c], rfl, ?_⟩
      simpa using hc
  refine ⟨.text (ofChar 'e' :: (s ++ digits)), ?_, _, rfl, s, digits, rfl, signs, filled, hd⟩
  simp only [hs, bind, Except.bind]
  rfl

/-- An exponent, or nothing in its place. -/
theorem exists_tail {v : Value} (h : v.Maybe (TextOf Decimal.IsExponent)) :
    ∃ w, v.asOptionalText = .ok w ∧ Decimal.IsTail w :=
  Value.asOptionalText_of_maybe h fun _ hv => hv

/-- A decimal with a point is read without a sign, whatever stands on one side of the point. -/
theorem isUnsigned_pointed {whole fraction tail : Text} (hw : Decimal.IsDigits whole)
    (hf : Decimal.IsDigits fraction) (hne : fraction ≠ []) (ht : Decimal.IsTail tail) :
    IsUnsigned (whole ++ ofChar '.' :: (fraction ++ tail)) := by
  obtain ⟨x, hx⟩ := Decimal.exists_readTail? ht
  refine ⟨⟨_, by rw [Decimal.readUnsigned?_pointed hw hf (.inr hne) ht.noDigitAhead, hx]; rfl⟩, ?_⟩
  by_cases filled : whole = []
  · rw [filled]
    simp [show ofChar '.' ≠ ofChar '-' by decide]
  · exact hw.head_ne filled _ (by simp)

theorem answers_pointed : pointed.Answers g (.ofText t) depth n 1 (TextOf IsUnsigned) := by
  refine Parser.answers_map (Parser.answers_seq (Parser.answers_seq (Parser.answers_seq
    answers_digitRun answers_point) answers_digitRun) (Parser.answers_optional answers_exponent)) ?_
  rintro _ ⟨_, e, rfl, ⟨_, _, rfl, ⟨_, _, rfl, ⟨whole, rfl, -, hw⟩, -⟩, fraction, rfl, hne, hf⟩, he⟩
  obtain ⟨tail, he, ht⟩ := exists_tail he
  refine ⟨.text (whole ++ ofChar '.' :: (fraction ++ tail)), ?_, _, rfl,
    isUnsigned_pointed hw hf hne ht⟩
  simp only [he, bind, Except.bind]
  simp [Value.asText, pure, Except.pure]

theorem answers_scaled : scaled.Answers g (.ofText t) depth n 1 (TextOf IsUnsigned) := by
  refine Parser.answers_map (Parser.answers_seq (Parser.answers_seq answers_digitRun
    (Parser.answers_optional answers_point)) answers_exponent) ?_
  rintro _ ⟨_, _, rfl, ⟨_, _, rfl, ⟨whole, rfl, hne, hw⟩, -⟩, tail, rfl, ht⟩
  obtain ⟨x, hx⟩ := Decimal.exists_readTail? (.inr ht)
  have read : Decimal.readUnsigned? (whole ++ tail) = some (Decimal.digitsValue whole, x) := by
    rw [Decimal.readUnsigned?_scaled hw hne ht, hx]
    rfl
  exact ⟨.text (whole ++ tail), rfl, _, rfl, ⟨_, read⟩, hw.head_ne hne _ (by simp)⟩

theorem answers_fractional : fractional.Answers g (.ofText t) depth n 1 (TextOf IsUnsigned) := by
  refine Parser.answers_map (Parser.answers_seq (Parser.answers_seq answers_point answers_digitRun)
    (Parser.answers_optional answers_exponent)) ?_
  rintro _ ⟨_, e, rfl, ⟨_, _, rfl, -, fraction, rfl, hne, hf⟩, he⟩
  obtain ⟨tail, he, ht⟩ := exists_tail he
  have none_before : Decimal.IsDigits [] := fun _ h => by cases h
  refine ⟨.text (ofChar '.' :: (fraction ++ tail)), ?_, _, rfl,
    isUnsigned_pointed none_before hf hne ht⟩
  simp only [he, bind, Except.bind]
  simp [Value.asText, pure, Except.pure]

theorem answers_real : real.Answers g (.ofText t) depth n 1 IsFloat := by
  have unsigned : (Parser.choice pointed [scaled, fractional]).Answers g (.ofText t) depth n 1
      (TextOf IsUnsigned) := by
    refine Parser.answers_choice answers_pointed ?_
    simp only [List.forall_mem_cons]
    exact ⟨answers_scaled, answers_fractional, List.forall_mem_nil _⟩
  refine Parser.answers_lookingAt (Parser.answers_map (answers_signed unsigned) ?_)
    answers_noLetterAfter
  rintro _ ⟨sign, _, rfl, hs, w, rfl, ⟨m, hm⟩, head⟩
  obtain ⟨s, hs, signs⟩ := Value.asOptionalText_of_maybe hs (Q := (· = [ofChar '-']))
    fun v hv => ⟨_, hv, rfl⟩
  obtain ⟨d, hd⟩ := Decimal.exists_read? hm head signs
  refine ⟨.float (.ofDecimal d), ?_, _, rfl⟩
  simp only [nearestNumber, hs, bind, Except.bind]
  simp [Value.asText, hd]

/-! ### Quoted texts -/

theorem answers_codePointEscape : codePointEscape.Answers g (.ofText t) depth n 1 IsText := by
  refine Parser.answers_map (Parser.answers_seq (Parser.answers_word (.ofChars ['u']))
    (Parser.answers_require (Parser.answers_times (Parser.answers_charOf _) fun _ => Nat.one_pos)
      fun s hs => exists_reportFrom _ (Nat.le_trans (Nat.le_add_left ..) hs))) ?_
  rintro _ ⟨_, digits, rfl, -, hd⟩
  obtain ⟨w, hw, least, most, hex⟩ := Value.exists_joinedText_charOf hd
  have four : w.length = 4 := Nat.le_antisymm (most 4 rfl) least
  have figures : ∀ c ∈ w, isFigure 16 c = true := fun c hc => by
    exact (Radix.exact_hexadecimal c).symm.trans (List.contains_iff_mem.2 (hex c hc))
  exact ⟨_, codePoint_of_joinedText _ hw four figures, _, rfl, trivial⟩

/-- An item that is read unless something else matches before it. -/
theorem answers_itemUnless (hp : p.Answers g (.ofText t) depth n k P) :
    (Parser.map (.seq (.absent p) .item) (Value.part 1)).Answers g (.ofText t) depth n 1 IsText := by
  have answers := Parser.answers_map (Parser.answers_seq (Parser.answers_absent hp)
    (Parser.answers_item (g := g) (t := t) (n := n + 0))) fun _ => Value.part_one_of_pair
  rwa [Nat.zero_add] at answers

namespace Quoting

variable {q : Quoting}

theorem answers_escapable (hq : q.advanced = []) :
    q.escapable.Answers g (.ofText t) depth n 0 IsText := by
  have last : ∀ p ∈ [codePointEscape, .item], p.Answers g (.ofText t) depth n 0 IsText := by
    simp only [List.forall_mem_cons]
    exact ⟨answers_codePointEscape.uncounted, Parser.answers_item.uncounted, List.forall_mem_nil _⟩
  unfold escapable
  dsimp only
  split
  · exact Parser.answers_choice (last _ List.mem_cons_self) fun p hp =>
      last p (List.mem_cons_of_mem _ hp)
  · rename_i p ps alternatives
    have sequences : ∀ p' ∈ p :: ps, p'.Answers g (.ofText t) depth n 0 IsText := by
      rw [← alternatives, hq, List.append_nil]
      intro p' hp'
      obtain ⟨⟨sequence, result⟩, -, rfl⟩ := List.mem_map.1 hp'
      exact Parser.Answers.uncounted (Parser.answers_map (Parser.answers_word sequence) fun _ _ =>
        ⟨.text result, rfl, result, rfl, trivial⟩)
    obtain ⟨first, others⟩ := List.forall_mem_cons.1 sequences
    exact Parser.answers_choice first fun p hp => (List.mem_append.1 hp).elim (others p) (last p)

theorem answers_escaped (hq : q.advanced = []) :
    q.escaped.Answers g (.ofText t) depth n q.escape.length IsText :=
  Parser.answers_map
    (Parser.answers_seq (Parser.answers_word q.escape)
      (Parser.answers_require (answers_escapable hq) fun _ hs =>
        exists_reportFrom _ (Nat.le_trans (Nat.le_add_left ..) hs)))
    fun _ => Value.part_one_of_pair

theorem answers_plain (quote : Text) :
    (q.plain quote).Answers g (.ofText t) depth n 1 IsText := by
  have word (w : Text) : (Parser.word w).Answers g (.ofText t) depth n 0 IsText :=
    (Parser.answers_word w).uncounted.weaken fun _ h => ⟨w, h, trivial⟩
  exact answers_itemUnless
    (Parser.answers_choice (word quote) (List.forall_mem_singleton.2 (word q.escape)))

/-- Both an escape and a plain item read something, so the repetition of them is safe. -/
theorem answers_content (hq : q.advanced = []) (hescape : q.escape ≠ []) (quote : Text) :
    (q.content quote).Answers g (.ofText t) depth n 0 IsText := by
  have escaped : q.escaped.Answers g (.ofText t) depth n 1 IsText :=
    (answers_escaped hq).mono (Nat.le_refl n) (List.length_pos_iff.2 hescape) fun _ h => h
  exact Parser.answers_map (Parser.answers_times (Parser.answers_choice escaped
    (List.forall_mem_singleton.2 (answers_plain quote))) fun _ => Nat.one_pos)
    fun _ => Value.exists_joined

theorem answers_between (hq : q.advanced = []) (hescape : q.escape ≠ []) (quote : Text) :
    (q.between quote).Answers g (.ofText t) depth n quote.length IsText := by
  have closed : ∀ opening : Value,
      opening.Pair (fun v => ∃ s, v = .span s) (· = .text quote) →
      ∃ p, (do return Parser.seq (q.content quote) (← closing quote opening) : Except Fault Parser) =
          .ok p ∧
        p.Answers g (.ofText t) depth (n + quote.length) 0 (Value.Pair IsText fun _ => True) := by
    rintro _ ⟨_, _, rfl, ⟨s, rfl⟩, -⟩
    refine ⟨_, rfl, ?_⟩
    refine Parser.answers_seq (k := 0) (l := 0) (answers_content hq hescape quote) ?_
    exact (Parser.answers_require (Parser.answers_word quote) fun s _ =>
      exists_report _ s).uncounted.weaken fun _ _ => trivial
  refine Parser.answers_map
    (Parser.answers_seqBy (Parser.answers_withSpan (Parser.answers_word quote)) closed) ?_
  rintro _ ⟨_, _, rfl, -, _, _, rfl, ⟨w, rfl, -⟩, -⟩
  exact ⟨.text w, rfl, w, rfl, trivial⟩

theorem answers_quoted (hq : q.advanced = []) (hescape : q.escape ≠ []) (hquotes : q.quotes ≠ []) :
    ∃ p, q.parser = .ok p ∧ ∀ g t depth n, p.Answers g (.ofText t) depth n 0 IsText := by
  obtain ⟨p, hp, answers⟩ := Parser.exists_choiceOf (q.quotes.map q.between) (by simpa)
  refine ⟨p, hp, fun g t depth n => answers g _ depth n 0 _ fun p' hp' => ?_⟩
  obtain ⟨quote, -, rfl⟩ := List.mem_map.1 hp'
  exact (answers_between hq hescape quote).uncounted

end Quoting

theorem answers_rawContent (quote : Text) :
    (rawContent quote).Answers g (.ofText t) depth n 0 IsText :=
  Parser.answers_map (Parser.answers_times (answers_itemUnless (Parser.answers_word quote))
    fun _ => Nat.one_pos) fun _ => Value.exists_joined

theorem answers_rawBetween (mark quote : Text) :
    (rawBetween mark quote).Answers g (.ofText t) depth n (mark ++ quote).length IsText := by
  refine Parser.answers_map (Parser.answers_seq
    (Parser.answers_seq (Parser.answers_word (mark ++ quote)) (answers_rawContent quote))
    (Parser.answers_require (Parser.answers_word quote) fun s _ => exists_report _ s).uncounted) ?_
  rintro _ ⟨_, _, rfl, ⟨_, _, rfl, -, w, rfl, -⟩, -⟩
  exact ⟨.text w, rfl, w, rfl, trivial⟩

theorem answers_rawQuoted (mark : Text) {quotes : List Text} (hquotes : quotes ≠ []) :
    ∃ p, rawQuoted mark quotes = .ok p ∧ ∀ g t depth n, p.Answers g (.ofText t) depth n 0 IsText := by
  obtain ⟨p, hp, answers⟩ := Parser.exists_choiceOf (quotes.map (rawBetween mark)) (by simpa)
  refine ⟨p, hp, fun g t depth n => answers g _ depth n 0 _ fun p' hp' => ?_⟩
  obtain ⟨quote, -, rfl⟩ := List.mem_map.1 hp'
  exact (answers_rawBetween mark quote).uncounted

end Lexeme

end Rules

/-! ### All of them -/

namespace Lexeme

/-- The lexical rules with their options; quoted texts have no other parsers after an escape. -/
inductive General where
  | blank
  | blanks
  | blanks1
  | identifier
  | keyword (word : Text)
  | integer (base : Int)
  | real
  | codePointEscape
  | quoted (quotes : List Text) (escape : Text) (sequences : List (Text × Text))
  | rawQuoted (mark : Text) (quotes : List Text)

namespace General

/-- The parser of a rule. -/
def parser : General → Except Fault Parser
  | blank => .ok Lexeme.blank
  | blanks => .ok Lexeme.blanks
  | blanks1 => .ok Lexeme.blanks1
  | identifier => .ok Lexeme.identifier
  | keyword w => .ok (Lexeme.keyword w)
  | integer base => Lexeme.integer base
  | real => .ok Lexeme.real
  | codePointEscape => .ok Lexeme.codePointEscape
  | quoted quotes escape sequences => Quoting.parser ⟨quotes, escape, sequences, []⟩
  | rawQuoted mark quotes => Lexeme.rawQuoted mark quotes

/-- The options are supported: the base of an integer, and at least one quote and some escape. -/
def Supported : General → Prop
  | integer base => base ∈ [0, 2, 8, 10, 16]
  | quoted quotes escape _ => quotes ≠ [] ∧ escape ≠ []
  | rawQuoted _ quotes => quotes ≠ []
  | _ => True

/-- What the outputs of a rule are. -/
def Output : General → Value → Prop
  | blank => CharOf Text.Class.whitespace
  | blanks | blanks1 => (· = .nothing)
  | keyword w => (· = .text w)
  | integer _ => IsInt
  | real => IsFloat
  | _ => IsText

end General

/-- The rule would have to convert more decimal digits at the place than are converted. -/
def General.Overlong (t : Text) (i : Nat) : General → Prop
  | integer base => (base = 0 ∨ base = 10) ∧ Numeral.maxDigits < decimalsAt t i
  | _ => False

/-- What the run of a rule comes to that converts no more digits than it may. -/
abbrev General.Answers (l : General) (r : Run Cursor) : Prop := r.Answers fun v _ => l.Output v

theorem General.answers_of_judgement {l : General} {p : Parser} {t : Text} {g : Grammar} {depth : Nat}
    (h : p.Answers g (.ofText t) depth 0 0 l.Output) {c : Cursor} (hc : c.Placed (.ofText t)) :
    l.Answers (p.runWithin g (.ofText t) depth c) :=
  (h c hc (Nat.zero_le _)).mono fun _ _ hv => hv.2

/-- With supported options the parser of integers can be built; it answers within the limit, and
breaks off past it. -/
theorem General.exists_answers_integer {base : Int} (h : (integer base).Supported) :
    ∃ p, Lexeme.integer base = .ok p ∧ ∀ (g : Grammar) (t : Text) (depth : Nat) (c : Cursor),
      c.Placed (.ofText t) →
        (¬(integer base).Overlong t c.position →
          (integer base).Answers (p.runWithin g (.ofText t) depth c)) ∧
        ((integer base).Overlong t c.position → (p.runWithin g (.ofText t) depth c).ending =
          .raised (.tooManyDigits (decimalsAt t c.position))) := by
  obtain ⟨n, rfl, listed⟩ : ∃ n : Nat, base = n ∧ n ∈ [0, 2, 8, 10, 16] := by
    simp only [Supported, List.mem_cons, List.not_mem_nil, or_false] at h
    rcases h with rfl | rfl | rfl | rfl | rfl <;> exact ⟨_, rfl, by decide⟩
  obtain ⟨p, built, found⟩ := exists_finds_integer listed
  refine ⟨p, built, fun g t depth c hc => ?_⟩
  have settles := (found g t depth c.position).settles hc
  obtain ⟨within, past⟩ := scanInteger_cases listed t c.position
  have same : (integer n).Overlong t c.position ↔
      (n = 0 ∨ n = 10) ∧ Numeral.maxDigits < decimalsAt t c.position := by
    unfold Overlong
    omega
  rw [same]
  refine ⟨fun short => ?_, fun long => by rw [settles.ending, past long]; rfl⟩
  have ending := settles.ending
  have upshot := within short
  generalize scanInteger n t c.position = x at ending upshot
  cases upshot with
  | matched k j => exact .matched ending ⟨k, rfl⟩
  | declined => exact .declined ending
  | failed d => exact .failed ending

/-- With supported options a rule can be built; it answers unless too many digits stand there. -/
theorem General.exists_answers (l : General) (h : l.Supported) :
    ∃ p, l.parser = .ok p ∧ ∀ (g : Grammar) (t : Text) (depth : Nat) (c : Cursor),
      c.Placed (.ofText t) →
        (¬l.Overlong t c.position → l.Answers (p.runWithin g (.ofText t) depth c)) ∧
        (l.Overlong t c.position → (p.runWithin g (.ofText t) depth c).ending =
          .raised (.tooManyDigits (decimalsAt t c.position))) := by
  -- every rule but that of integers answers by the judgement on its parser
  have always {p : Parser} (answers : ∀ g t depth, p.Answers g (.ofText t) depth 0 0 l.Output)
      (never : ∀ t i, ¬l.Overlong t i) (g : Grammar) (t : Text) (depth : Nat) (c : Cursor)
      (hc : c.Placed (.ofText t)) :
      (¬l.Overlong t c.position → l.Answers (p.runWithin g (.ofText t) depth c)) ∧
        (l.Overlong t c.position → (p.runWithin g (.ofText t) depth c).ending =
          .raised (.tooManyDigits (decimalsAt t c.position))) :=
    ⟨fun _ => answers_of_judgement (answers g t depth) hc, fun long => absurd long (never _ _)⟩
  cases l with
  | integer base => exact exists_answers_integer h
  | blank =>
    exact ⟨_, rfl, always (fun _ _ _ => (Parser.answers_charOf _).uncounted) fun _ _ => id⟩
  | blanks => exact ⟨_, rfl, always (fun _ _ _ => answers_blanks) fun _ _ => id⟩
  | blanks1 => exact ⟨_, rfl, always (fun _ _ _ => answers_blanks1) fun _ _ => id⟩
  | identifier =>
    exact ⟨_, rfl, always (fun _ _ _ => answers_identifier.uncounted) fun _ _ => id⟩
  | keyword w =>
    exact ⟨_, rfl, always (fun _ _ _ => (answers_keyword w).uncounted) fun _ _ => id⟩
  | real => exact ⟨_, rfl, always (fun _ _ _ => answers_real.uncounted) fun _ _ => id⟩
  | codePointEscape =>
    exact ⟨_, rfl, always (fun _ _ _ => answers_codePointEscape.uncounted) fun _ _ => id⟩
  | quoted quotes escape sequences =>
    obtain ⟨p, hp, answers⟩ :=
      @Quoting.answers_quoted ⟨quotes, escape, sequences, []⟩ rfl h.2 h.1
    exact ⟨p, hp, always (fun g t depth => answers g t depth 0) fun _ _ => id⟩
  | rawQuoted mark quotes =>
    obtain ⟨p, hp, answers⟩ := answers_rawQuoted mark h
    exact ⟨p, hp, always (fun g t depth => answers g t depth 0) fun _ _ => id⟩

end Lexeme

/-- Every lexical rule with supported options can be built, and wherever it is run on whatever text
it comes to an outcome: a match, whose output is of the rule's kind, or a non-match, or an error
that is a diagnostic.  So no number is past the last code point, no span is grown to before the
start of the text, and no repetition matches without reading; each of these would raise a fault.
There is one fault, which is raised where an integer that is decimal has more digits than are
converted, whatever its digits are and whatever follows. -/
theorem lexical_rules_answer_within_limit (l : Lexeme.General) (h : l.Supported) :
    ∃ p, l.parser = .ok p ∧
      ∀ (g : Grammar) (t : Text) (depth : Nat) (c : Cursor), c.Placed (.ofText t) →
        let r := p.runWithin g (.ofText t) depth c
        (¬l.Overlong t c.position → ∃ o, r.ending = .answered o ∧
          (∀ v, o = .matched v → l.Output v) ∧ ∀ e, o = .failed e → ∃ d, e = .diagnostic d) ∧
        (l.Overlong t c.position →
          r.ending = .raised (.tooManyDigits (Lexeme.decimalsAt t c.position))) := by
  obtain ⟨p, hp, answers⟩ := l.exists_answers h
  refine ⟨p, hp, fun g t depth c hc => ⟨fun short => ?_, (answers g t depth c hc).2⟩⟩
  cases (answers g t depth c hc).1 short with
  | matched ending holds =>
    exact ⟨_, ending, fun v hv => Outcome.matched.inj hv ▸ holds, nofun⟩
  | declined ending =>
    exact ⟨_, ending, nofun, nofun⟩
  | failed ending =>
    exact ⟨_, ending, nofun, fun e he => ⟨_, (Outcome.failed.inj he).symm⟩⟩

/-- Texts between double quotes, with a backslash as the escape and without sequences. -/
def Lexeme.General.plainlyQuoted : Lexeme.General :=
  .quoted [.ofChars ['"']] (.ofChars ['\\']) []

/-- A quote, a letter, and a backslash at the end. -/
def Text.brokenEscape : Text := .ofChars ['"', 'a', '\\']

theorem Lexeme.Quoting.ending_brokenEscape :
    ∃ p, Lexeme.General.plainlyQuoted.parser = .ok p ∧
      (p.runWithin .empty (.ofText Text.brokenEscape) 0 .start).ending =
        .answered (.failed (.diagnostic ⟨⟨2, 3, by decide⟩,
          some (.ofString "Expected a character to escape after `" ++ .ofChars ['\\'] ++
            .ofString "`.")⟩)) :=
  ⟨_, rfl, rfl⟩

/-- The text ends after the escape, and the span of the error is grown over it. -/
theorem lexical_rules_answer_within_limit_broken_escape :
    Lexeme.General.plainlyQuoted.Supported ∧ Cursor.start.Placed (.ofText Text.brokenEscape) ∧
      ∃ p d, Lexeme.General.plainlyQuoted.parser = .ok p ∧
        (p.runWithin .empty (.ofText Text.brokenEscape) 0 .start).ending =
          .answered (.failed (.diagnostic d)) ∧
        d.span = ⟨2, 3, by decide⟩ := by
  have supported : Lexeme.General.plainlyQuoted.Supported := ⟨by decide, by decide⟩
  have placed := Cursor.placed_start (.ofText Text.brokenEscape)
  obtain ⟨p, hp, answers⟩ := lexical_rules_answer_within_limit _ supported
  obtain ⟨q, hq, failed⟩ := Lexeme.Quoting.ending_brokenEscape
  obtain rfl : q = p := Except.ok.inj (hq.symm.trans hp)
  obtain ⟨o, ending, -, errors⟩ := (answers .empty Text.brokenEscape 0 .start placed).1 id
  obtain rfl : _ = o := Ending.answered.inj (failed.symm.trans ending)
  obtain ⟨d, hd⟩ := errors _ rfl
  exact ⟨supported, placed, q, d, hq, hd ▸ failed, Value.diagnostic.inj hd ▸ rfl⟩

/-- Not every rule always answers: decimal integers do not where there are too many zeros. -/
theorem lexical_rules_not_always_answer :
    ¬∀ l : Lexeme.General, l.Supported → ∃ p, l.parser = .ok p ∧
      ∀ (g : Grammar) (t : Text) (depth : Nat) (c : Cursor), c.Placed (.ofText t) →
        ∃ o, (p.runWithin g (.ofText t) depth c).ending = .answered o := by
  intro always
  obtain ⟨p, built, answers⟩ := always (.integer 10) (by decide : (10 : Int) ∈ [0, 2, 8, 10, 16])
  obtain ⟨q, built', found⟩ := @Lexeme.exists_finds_integer 10 (by decide)
  obtain rfl : q = p := Except.ok.inj (built'.symm.trans built)
  have placed := Cursor.placed_start (.ofText (List.replicate 4301 (ofChar '0')))
  have settles := (found .empty _ 0 0).settles placed
  rw [Lexeme.scanInteger_zeros (by decide)] at settles
  obtain ⟨o, ending⟩ := answers .empty _ 0 .start placed
  cases settles.ending.symm.trans ending

end Backtrack
