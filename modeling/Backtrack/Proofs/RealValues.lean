import Mathlib.Tactic.FieldSimp
import Backtrack.Proofs.RealScan
import Backtrack.Proofs.Rounding

/-!
# The value of a decimal

What a written decimal denotes is said without regard to how it is read: the number of its figures,
a tenth for each figure after the point, and the power of ten of its exponent.  Reading gives
exactly that number.  The parser of decimals puts together another text from what it read, with the
letter of the exponent in lowercase and without a point that no figures follow; that text denotes
the same number, and the output is that number rounded to nearest.

* `Decimal.Denotes`: the number that a text denotes.
* `Decimal.Denotes.read?`: what is read of it.
* `Lexeme.Magnitude.StandsFor`: what was read and what was put together denote one number.
* `reals_are_rounded`: the law.
-/

namespace Backtrack

open CodePoint (ofChar)
open Numeral (number)

/-! ### What is denoted -/

namespace Decimal

/-- What stands after the figures: nothing, or a letter, perhaps a sign, and figures. -/
inductive DenotesExponent : Text → Int → Prop
  | absent : DenotesExponent [] 0
  | written {c : CodePoint} (letter : c = ofChar 'e' ∨ c = ofChar 'E') (e : Lexeme.Exponent) :
    DenotesExponent (c :: (e.sign ++ e.figures)) e.value

/-- A decimal without a sign: figures, perhaps a point, on one side of which they may be missing,
and perhaps an exponent. -/
inductive DenotesMagnitude : Text → ℚ → Prop
  | integral {whole tail : Text} {e : Int} (isDigits : IsDigits whole) (filled : whole ≠ [])
    (exponent : DenotesExponent tail e) :
    DenotesMagnitude (whole ++ tail) (number 10 whole * 10 ^ e)
  | pointed {whole fraction tail : Text} {e : Int} (isDigits : IsDigits whole)
    (areDigits : IsDigits fraction) (filled : whole ≠ [] ∨ fraction ≠ [])
    (exponent : DenotesExponent tail e) :
    DenotesMagnitude (whole ++ ofChar '.' :: (fraction ++ tail))
      ((number 10 whole + number 10 fraction / 10 ^ fraction.length) * 10 ^ e)

/-- The text is a decimal that denotes the number.  The sign is given apart, since zero has one
too. -/
inductive Denotes : Text → Bool → ℚ → Prop
  | plain {t : Text} {r : ℚ} (unsigned : DenotesMagnitude t r) : Denotes t false r
  | minus {t : Text} {r : ℚ} (unsigned : DenotesMagnitude t r) :
    Denotes (ofChar '-' :: t) true (-r)

/-! ### Reading what is denoted -/

section Reading

variable {t : Text} {r : ℚ}

theorem readTail?_of_letter {c : CodePoint} (letter : c = ofChar 'e' ∨ c = ofChar 'E') (t : Text) :
    readTail? (c :: t) = readExponent? t := by
  rw [readTail?, if_pos letter]

theorem DenotesExponent.readTail? {e : Int} (h : DenotesExponent t e) : readTail? t = some e := by
  cases h with
  | absent => rfl
  | written letter e =>
    rw [readTail?_of_letter letter, ← readTail?_of_letter (.inl rfl)]
    exact e.readTail?_text

/-- The figures before an exponent end where it begins. -/
theorem DenotesExponent.ahead {e : Int} (h : DenotesExponent t e) :
    NoDigitAhead t ∧ t.head? ≠ some (ofChar '.') := by
  cases h with
  | absent => exact ⟨nofun, nofun⟩
  | written letter e =>
    constructor
    · intro c hc
      obtain rfl := Option.some.inj hc
      rcases letter with rfl | rfl <;> exact not_mem_decimal (by simp)
    · rcases letter with rfl | rfl <;> rw [List.head?_cons] <;> decide

/-- The parts of a numeral in front of its exponent are those that reading finds. -/
theorem DenotesMagnitude.readUnsigned? (h : DenotesMagnitude t r) :
    ∃ n x, readUnsigned? t = some (n, x) ∧ (n * 10 ^ x : ℚ) = r := by
  cases h with
  | @integral whole tail e isDigits filled exponent =>
    obtain ⟨ahead, point⟩ := exponent.ahead
    refine ⟨number 10 whole, e, ?_, rfl⟩
    rw [readUnsigned?_integral isDigits filled ahead point, exponent.readTail?,
      Lexeme.digitsValue_eq isDigits]
    rfl
  | @pointed whole fraction tail e isDigits areDigits filled exponent =>
    have both : IsDigits (whole ++ fraction) := fun c hc =>
      (List.mem_append.1 hc).elim (isDigits c) (areDigits c)
    refine ⟨number 10 (whole ++ fraction), e - fraction.length, ?_, ?_⟩
    · rw [readUnsigned?_pointed isDigits areDigits filled exponent.ahead.1, exponent.readTail?,
        Lexeme.digitsValue_eq both]
      rfl
    · have tens : (10 : ℚ) ^ fraction.length ≠ 0 := pow_ne_zero _ (by norm_num)
      rw [Numeral.number_append (Lexeme.isDigits_iff.1 areDigits), zpow_sub₀ (by norm_num),
        zpow_natCast]
      push_cast
      field_simp

/-- A point with no figures after it changes nothing. -/
theorem DenotesMagnitude.of_trailing_point {whole tail : Text} {e : Int}
    (isDigits : IsDigits whole) (filled : whole ≠ []) (exponent : DenotesExponent tail e) :
    DenotesMagnitude (whole ++ ofChar '.' :: tail) (number 10 whole * 10 ^ e) := by
  have none : number 10 [] = 0 := rfl
  have denotes := DenotesMagnitude.pointed isDigits Lexeme.isDigits_nil (.inl filled) exponent
  rwa [none, Nat.cast_zero, zero_div, add_zero] at denotes

theorem DenotesMagnitude.head?_ne (h : DenotesMagnitude t r) : t.head? ≠ some (ofChar '-') := by
  cases h with
  | integral isDigits filled _ => exact isDigits.head_ne filled _ (by simp)
  | @pointed whole _ _ _ isDigits _ _ _ =>
    by_cases none : whole = []
    · rw [none, List.nil_append, List.head?_cons]
      decide
    · exact isDigits.head_ne none _ (by simp)

/-- A decimal is read as the number that it denotes, with its sign. -/
theorem Denotes.read? {negative : Bool} (h : Denotes t negative r) :
    ∃ d, read? t = some d ∧ d.negative = negative ∧ d.value = r := by
  cases h with
  | plain unsigned =>
    obtain ⟨n, x, read, value⟩ := unsigned.readUnsigned?
    exact ⟨_, read?_of_readUnsigned? read unsigned.head?_ne false, rfl, value⟩
  | minus unsigned =>
    obtain ⟨n, x, read, value⟩ := unsigned.readUnsigned?
    exact ⟨_, read?_of_readUnsigned? read unsigned.head?_ne true, rfl, congrArg Neg.neg value⟩

theorem DenotesMagnitude.denotes (h : DenotesMagnitude t r) (negative : Bool) :
    Denotes ((if negative then [ofChar '-'] else []) ++ t) negative
      (Binary64.signed negative r) := by
  cases negative with
  | true => exact .minus h
  | false => exact .plain h

/-- A text denotes at most one number. -/
theorem Denotes.unique {negative negative' : Bool} {r' : ℚ} (h : Denotes t negative r)
    (h' : Denotes t negative' r') : negative' = negative ∧ r' = r := by
  obtain ⟨d, read, rfl, rfl⟩ := h.read?
  obtain ⟨d', read', rfl, rfl⟩ := h'.read?
  cases read.symm.trans read'
  exact ⟨rfl, rfl⟩

end Reading

end Decimal

/-! ### What the scan reads and puts together -/

/-- What stands one after the other stands together. -/
theorem append_prefix_drop {α : Type} {l u w : List α} {i : Nat} (hu : u <+: l.drop i)
    (hw : w <+: l.drop (i + u.length)) : u ++ w <+: l.drop i := by
  obtain ⟨rest, same⟩ := hu
  rw [← List.drop_drop, ← same, List.drop_left] at hw
  rw [← same]
  exact List.prefix_append_right_inj u |>.2 hw

theorem singleton_prefix_drop {α : Type} {l : List α} {i : Nat} {a : α} (h : l[i]? = some a) :
    [a] <+: l.drop i := by
  rw [drop_eq_cons h]
  exact ⟨_, rfl⟩

namespace Lexeme

open Decimal (IsDigits DenotesExponent DenotesMagnitude)

section Scan

variable {t : Text} {i : Nat}

theorem figuresAt_stands (t : Text) (i : Nat) : figuresAt t i <+: t.drop i :=
  List.takeWhile_prefix _

theorem signAt_stands (t : Text) (i : Nat) : signAt t i <+: t.drop i := by
  unfold signAt
  cases h : t[i]?.filter fun c => c = ofChar '+' ∨ c = ofChar '-' with
  | none => exact List.nil_prefix
  | some c => exact singleton_prefix_drop (Option.filter_eq_some_iff.1 h).1

theorem scanExponent_stands {e : Exponent} (h : scanExponent t i = some e) :
    ∃ c, (c = ofChar 'e' ∨ c = ofChar 'E') ∧ c :: (e.sign ++ e.figures) <+: t.drop i := by
  unfold scanExponent at h
  dsimp only at h
  split at h
  · rename_i stands
    cases h
    have rest := append_prefix_drop (signAt_stands t (i + 1)) (figuresAt_stands t _)
    rcases stands.1 with letter | letter
    · exact ⟨_, .inl rfl, append_prefix_drop (singleton_prefix_drop letter) rest⟩
    · exact ⟨_, .inr rfl, append_prefix_drop (singleton_prefix_drop letter) rest⟩
  · cases h

/-- A numeral stands at a place and ends at another, and the text that is put together from it
denotes what it denotes. -/
def Magnitude.StandsFor (m : Magnitude) (t : Text) (i j : Nat) : Prop :=
  ∃ w r, w <+: t.drop i ∧ j = i + w.length ∧ DenotesMagnitude w r ∧ DenotesMagnitude m.text r

theorem exists_tail_stands (t : Text) (i : Nat) :
    ∃ w e, w <+: t.drop i ∧ (tail (scanExponent t i)).length = w.length ∧ DenotesExponent w e ∧
      DenotesExponent (tail (scanExponent t i)) e := by
  cases h : scanExponent t i with
  | none => exact ⟨[], 0, List.nil_prefix, rfl, .absent, .absent⟩
  | some e =>
    obtain ⟨c, letter, stands⟩ := scanExponent_stands h
    exact ⟨_, e.value, stands, rfl, .written letter e, .written (.inl rfl) e⟩

/-- Figures that stand before the point are kept, and so are those after it. -/
theorem pointedAt_standsFor {whole : Text} {isDigits : IsDigits whole} {m : Magnitude} {j : Nat}
    (hw : whole <+: t.drop i) (h : pointedAt whole isDigits t (i + whole.length) = some (m, j)) :
    m.StandsFor t i j := by
  unfold pointedAt at h
  dsimp only at h
  split at h
  · rename_i stands
    cases h
    obtain ⟨w, e, ends, length, denotes, written⟩ :=
      exists_tail_stands t (i + whole.length + 1 + (figuresAt t (i + whole.length + 1)).length)
    have fraction := figuresAt_stands t (i + whole.length + 1)
    refine ⟨whole ++ ofChar '.' :: (figuresAt t (i + whole.length + 1) ++ w), _, ?_, ?_,
      .pointed isDigits (isDigits_figuresAt t _) (.inr stands.2) denotes,
      .pointed isDigits (isDigits_figuresAt t _) (.inr stands.2) written⟩
    · exact append_prefix_drop hw (append_prefix_drop (singleton_prefix_drop stands.1)
        (append_prefix_drop fraction ends))
    · rw [length, List.length_append, List.length_cons, List.length_append]
      omega
  · cases h

/-- A point that no figures follow is left out. -/
theorem scaledAt_standsFor {m : Magnitude} {j : Nat} (h : scaledAt t i = some (m, j)) :
    m.StandsFor t i j := by
  unfold scaledAt at h
  dsimp only at h
  split at h
  · rename_i filled
    obtain ⟨e, scanned, same⟩ := Option.map_eq_some_iff.1 h
    cases same
    obtain ⟨c, letter, ends⟩ := scanExponent_stands scanned
    have isDigits := isDigits_figuresAt t i
    have whole := figuresAt_stands t i
    have denotes : DenotesExponent (c :: (e.sign ++ e.figures)) e.value := .written letter e
    have written : DenotesMagnitude (figuresAt t i ++ e.text) _ :=
      .integral isDigits filled (.written (.inl rfl) e)
    by_cases point : t[i + (figuresAt t i).length]? = some (ofChar '.')
    · rw [if_pos point] at ends ⊢
      have stands := append_prefix_drop (singleton_prefix_drop point) ends
      refine ⟨_, _, append_prefix_drop whole stands, ?_,
        .of_trailing_point isDigits filled denotes, written⟩
      rw [Exponent.text]
      simp only [List.length_append, List.length_cons, List.length_nil]
      omega
    · rw [if_neg point] at ends ⊢
      refine ⟨_, _, append_prefix_drop whole ends, ?_, .integral isDigits filled denotes, written⟩
      rw [Exponent.text, List.length_append, List.length_cons, List.length_cons]
      omega
  · cases h

theorem scanMagnitude_standsFor {m : Magnitude} {j : Nat} (h : scanMagnitude t i = some (m, j)) :
    m.StandsFor t i j := by
  unfold scanMagnitude at h
  cases pointed : pointedAt (figuresAt t i) (isDigits_figuresAt t i) t
      (i + (figuresAt t i).length) with
  | some m =>
    dsimp only at h
    rw [pointed] at h
    cases h
    exact pointedAt_standsFor (figuresAt_stands t i) pointed
  | none =>
    dsimp only at h
    rw [pointed] at h
    exact scaledAt_standsFor h

/-! ### What the value is made of -/

/-- The text that the number is read from. -/
def sourceText : Value → Except Fault Text
  | .tuple [sign, unsigned] => do return (← sign.asOptionalText) ++ (← unsigned.asText)
  | v => .error (.unexpectedShape v)

/-- The number is that of the source text, however this is put together. -/
theorem nearestNumber_eq (v : Value) :
    nearestNumber v = sourceText v >>= fun w =>
      match Decimal.read? w with
      | some d => .ok (.float (.ofDecimal d))
      | none => .error (.unexpectedShape (.text w)) := by
  unfold nearestNumber
  split
  · rename_i sign unsigned
    rw [sourceText]
    cases sign.asOptionalText with
    | error f => rfl
    | ok s => cases unsigned.asText <;> rfl
  · rename_i other
    have refused : sourceText v = .error (.unexpectedShape v) := by
      unfold sourceText
      split
      · exact absurd rfl (other _ _)
      · rfl
    rw [refused]
    rfl

theorem sourceText_signValue (negative : Bool) (w : Text) :
    sourceText (.tuple [signValue negative, .text w]) =
      .ok ((if negative then [ofChar '-'] else []) ++ w) := by
  cases negative <;> rfl

theorem scanReal_eq_matched {v : Value} {j : Nat} (h : scanReal t i = .matched v j) :
    let negative : Bool := t[i]? = some (ofChar '-')
    ∃ m, scanMagnitude t (if negative then i + 1 else i) = some (m, j) ∧
      v = .float (.ofDecimal (m.decimal negative)) := by
  unfold scanReal at h
  dsimp only at h ⊢
  split at h
  · cases h
  · rename_i m k scanned
    unfold ending at h
    split at h
    · cases h
    · cases h
      exact ⟨m, scanned, rfl⟩

/-- The sign stands before the rest, and belongs to both texts. -/
theorem scanReal_standsFor {v : Value} {j : Nat} (h : scanReal t i = .matched v j) :
    ∃ (negative : Bool) (m : Magnitude) (w : Text) (r : ℚ),
      w <+: t.drop i ∧ j = i + w.length ∧ Decimal.Denotes w negative r ∧
      Decimal.Denotes ((if negative then [ofChar '-'] else []) ++ m.text) negative r ∧
      v = .float (.ofDecimal (m.decimal negative)) ∧
      ∀ (g : Grammar) (depth : Nat),
        (signed (.choice pointed [scaled, fractional])).Finds g (.ofText t) depth i
          (.matched (.tuple [signValue negative, .text m.text]) j) := by
  obtain ⟨m, scanned, rfl⟩ := scanReal_eq_matched h
  have parts (g : Grammar) (depth : Nat) :
      (signed (.choice pointed [scaled, fractional])).Finds g (.ofText t) depth i _ :=
    finds_signed fun j => finds_magnitude (i := j)
  by_cases negative : t[i]? = some (ofChar '-')
  · simp only [negative, decide_true, if_true] at scanned parts ⊢
    obtain ⟨w, r, stands, length, denotes, written⟩ := scanMagnitude_standsFor scanned
    rw [scanned] at parts
    refine ⟨true, m, ofChar '-' :: w, _,
      append_prefix_drop (singleton_prefix_drop negative) stands, ?_, denotes.denotes true,
      written.denotes true, rfl, parts⟩
    rw [length, List.length_cons]
    omega
  · simp only [negative, decide_false, Bool.false_eq_true, if_false] at scanned parts ⊢
    obtain ⟨w, r, stands, length, denotes, written⟩ := scanMagnitude_standsFor scanned
    rw [scanned] at parts
    exact ⟨false, m, w, _, stands, length, denotes.denotes false, written.denotes false, rfl, parts⟩

end Scan

end Lexeme

/-- A number that the parser of decimals gives is that of the characters it read.  They denote one
number, of which the sign is kept even if it is zero.  The text that the value is read from is a
decimal too, and denotes the same number, whether or not a point was left out or the letter of the
exponent changed.  The value is the number rounded to nearest with ties to even, to infinity from
half way past the greatest finite number on; nothing else is so rounded. -/
theorem reals_are_rounded (g : Grammar) (t : Text) (depth : Nat) {c : Cursor}
    (hc : c.Placed (.ofText t)) {v : Value}
    (h : (Lexeme.real.runWithin g (.ofText t) depth c).ending = .answered (.matched v)) :
    let stop := (Lexeme.real.runWithin g (.ofText t) depth c).state.position
    let consumed := (t.take stop).drop c.position
    let unsigned := Parser.choice Lexeme.pointed [Lexeme.scaled, Lexeme.fractional]
    ∃ negative r parts w d x,
      Decimal.Denotes consumed negative r ∧
      (∀ n q, Decimal.Denotes consumed n q → n = negative ∧ q = r) ∧
      ((Lexeme.signed unsigned).runWithin g (.ofText t) depth c).Settles c (.matched parts stop) ∧
      Lexeme.sourceText parts = .ok w ∧ Lexeme.nearestNumber parts = .ok v ∧
      Decimal.Denotes w negative r ∧
      Decimal.read? w = some d ∧ d.negative = negative ∧ d.value = r ∧
      v = .float x ∧ x = .ofDecimal d ∧
      Binary64.IsRounding negative r x ∧ ∀ y, Binary64.IsRounding negative r y → y = x := by
  have found : Lexeme.real.Finds g (.ofText t) depth c.position _ := Lexeme.finds_real
  have settles := found.settles hc
  intro stop consumed unsigned
  cases scan : Lexeme.scanReal t c.position
  case matched v' j =>
    rw [scan] at settles
    cases settles.1.symm.trans h
    have hstop : stop = j := congrArg Cursor.position settles.2
    obtain ⟨negative, m, w, r, stands, rfl, denotes, written, rfl, parts⟩ :=
      Lexeme.scanReal_standsFor scan
    have hconsumed : consumed = w := by rw [← drop_take_of_prefix_drop stands, ← hstop]
    obtain ⟨d, read, hd, hr⟩ := written.read?
    cases read.symm.trans (m.read?_text negative)
    have source := Lexeme.sourceText_signValue negative m.text
    have value : Lexeme.nearestNumber (.tuple [Lexeme.signValue negative, .text m.text]) =
        .ok (.float (.ofDecimal (m.decimal negative))) := by
      rw [Lexeme.nearestNumber_eq, source]
      simp only [bind, Except.bind, read]
    have rounding := Binary64.isRounding_ofDecimal (m.decimal negative)
    rw [hd, hr] at rounding
    rw [hconsumed, hstop]
    exact ⟨negative, r, _, _, _, _, denotes, fun n q other => denotes.unique other,
      (parts g depth).settles hc, source, value, written, read, hd, hr, rfl, rfl, rounding,
      fun y hy => hy.unique rounding⟩
  all_goals
    rw [scan] at settles
    cases settles.1.symm.trans h

/-- The exponent of a tiny number. -/
def Lexeme.Exponent.tiny : Lexeme.Exponent where
  sign := .ofChars ['-']
  figures := .ofChars ['3', '2', '5']
  isSign := .inr (.inr rfl)
  isDigits := Lexeme.isDigits_iff.2 (List.all_eq_true.1 (by decide))
  filled := by decide

/-- A number just above half of the least magnitude. -/
def Lexeme.Magnitude.tiny : Lexeme.Magnitude :=
  .scaled (.ofChars ['2', '5']) .tiny (Lexeme.isDigits_iff.2 (List.all_eq_true.1 (by decide)))
    (by decide)

/-- With a minus, a point that no figures follow, and a capital letter. -/
def Text.tiny : Text := .ofChars ['x', '-', '2', '5', '.', 'E', '-', '3', '2', '5', ';']

/-- The tiny number is not rounded to zero, but to the least magnitude below it. -/
theorem reals_are_rounded_to_subnormal :
    let run := Lexeme.real.runWithin .empty (.ofText Text.tiny) 0 (.point 1)
    (Cursor.point 1).Placed (.ofText Text.tiny) ∧
      run.ending = .answered (.matched (.float ⟨true, 1⟩)) ∧ run.state.position = 10 ∧
      Decimal.Denotes ((Text.tiny.take 10).drop 1) true (-(25 * 10 ^ (-325 : Int))) ∧
      Binary64.IsRounding true (-(25 * 10 ^ (-325 : Int))) ⟨true, 1⟩ := by
  intro run
  have placed : (Cursor.point 1).Placed (.ofText Text.tiny) := Cursor.placed_point (by decide)
  have scan : Lexeme.scanReal Text.tiny 1 =
      .matched (.float (.ofDecimal (Lexeme.Magnitude.tiny.decimal true))) 10 := rfl
  have least : Binary64.ofDecimal (Lexeme.Magnitude.tiny.decimal true) = ⟨true, 1⟩ := by
    decide +kernel
  have found : Lexeme.real.Finds .empty (.ofText Text.tiny) 0 1 _ := Lexeme.finds_real
  rw [scan, least] at found
  obtain ⟨ending, state⟩ := found.settles placed
  have position : run.state.position = 10 := congrArg Cursor.position state
  have exponent : Decimal.DenotesExponent (.ofChars ['E', '-', '3', '2', '5']) (-325) :=
    .written (.inr rfl) Lexeme.Exponent.tiny
  have denotes : Decimal.Denotes ((Text.tiny.take 10).drop 1) true (-(25 * 10 ^ (-325 : Int))) :=
    .minus (.of_trailing_point (Lexeme.isDigits_iff.2 (List.all_eq_true.1 (by decide)))
      (show Text.ofChars ['2', '5'] ≠ [] by decide) exponent)
  obtain ⟨negative, r, _, _, _, x, -, only, -, -, -, -, -, -, -, same, -, rounding, -⟩ :=
    reals_are_rounded .empty Text.tiny 0 placed ending
  rw [position] at only
  obtain ⟨rfl, rfl⟩ := only true _ denotes
  cases same
  exact ⟨placed, ending, position, denotes, rounding⟩

end Backtrack
