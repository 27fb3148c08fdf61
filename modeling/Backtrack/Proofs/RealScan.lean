import Backtrack.Lexeme.Real
import Backtrack.Proofs.IntegerScan
import Backtrack.Proofs.Numerals

/-!
# Decimals as a scan

The grammar of decimals as a function of the text alone: an optional minus and the longest run of
figures; where a point and a figure follow, the longest run of figures after the point, and an
exponent if a complete one comes next; otherwise perhaps a point, and an exponent, which has to be
there.  No letter or underscore may stand right after the numeral.  The parser of decimals comes to
exactly what the scan comes to, with the binary64 number nearest to what is written.

* `Lexeme.Magnitude`: numerals as they are written, and the decimals that they denote.
* `Lexeme.scanReal`: the scan.
* `Lexeme.finds_real`: the parser finds what the scan says.
* `reals_follow_scan`: what that means for the stream.
-/

namespace Backtrack

open CodePoint (ofChar)
open Numeral (isFigure number)

namespace Lexeme

/-! ### Numerals -/

/-- An exponent as it is written after its letter. -/
structure Exponent where
  sign : Text
  figures : Text
  isSign : sign = [] ∨ sign = [ofChar '+'] ∨ sign = [ofChar '-']
  isDigits : Decimal.IsDigits figures
  filled : figures ≠ []

namespace Exponent

def value (e : Exponent) : Int :=
  if e.sign = [ofChar '-'] then -number 10 e.figures else number 10 e.figures

/-- With its letter, in lowercase. -/
def text (e : Exponent) : Text := ofChar 'e' :: (e.sign ++ e.figures)

theorem length_text (e : Exponent) : e.text.length = 1 + e.sign.length + e.figures.length := by
  rw [text, List.length_cons, List.length_append]
  omega

end Exponent

/-- An exponent that may be missing. -/
def tail (e : Option Exponent) : Text := e.elim [] Exponent.text

/-- A decimal without its sign, as it is written. -/
inductive Magnitude where
  /-- Figures after a point, perhaps some before it, and perhaps an exponent. -/
  | pointed (whole fraction : Text) (exponent : Option Exponent) (isDigits : Decimal.IsDigits whole)
    (areDigits : Decimal.IsDigits fraction) (filled : fraction ≠ [])
  /-- Figures and an exponent. -/
  | scaled (whole : Text) (exponent : Exponent) (isDigits : Decimal.IsDigits whole)
    (filled : whole ≠ [])

namespace Magnitude

/-- The decimal that is denoted, with its sign. -/
def decimal (negative : Bool) : Magnitude → Decimal
  | pointed whole fraction e _ _ _ =>
    ⟨negative, number 10 (whole ++ fraction), (e.map Exponent.value).getD 0 - fraction.length⟩
  | scaled whole e _ _ => ⟨negative, number 10 whole, e.value⟩

/-- Without a point where no figures follow it. -/
def text : Magnitude → Text
  | pointed whole fraction e _ _ _ => whole ++ ofChar '.' :: (fraction ++ tail e)
  | scaled whole e _ _ => whole ++ e.text

end Magnitude

/-! ### The scan -/

/-- The longest run of figures from `i` on. -/
def figuresAt (t : Text) (i : Nat) : Text := (t.drop i).takeWhile (isFigure 10)

/-- The sign at `i`, if there is one. -/
def signAt (t : Text) (i : Nat) : Text :=
  (t[i]?.filter fun c => c = ofChar '+' ∨ c = ofChar '-').toList

theorem contains_decimal (c : CodePoint) : Text.Class.decimal.contains c = isFigure 10 c :=
  Radix.exact_decimal c

theorem isDigits_iff {t : Text} : Decimal.IsDigits t ↔ ∀ c ∈ t, isFigure 10 c = true := by
  simp only [Decimal.IsDigits, ← contains_decimal, List.contains_iff_mem]

theorem isDigits_nil : Decimal.IsDigits [] := fun _ h => by cases h

theorem isDigits_figuresAt (t : Text) (i : Nat) : Decimal.IsDigits (figuresAt t i) :=
  isDigits_iff.2 fun _ hc => List.mem_takeWhile_imp hc

theorem isSign_signAt (t : Text) (i : Nat) :
    signAt t i = [] ∨ signAt t i = [ofChar '+'] ∨ signAt t i = [ofChar '-'] := by
  unfold signAt
  cases h : t[i]?.filter fun c => c = ofChar '+' ∨ c = ofChar '-' with
  | none => exact .inl rfl
  | some c =>
    have sign := (Option.filter_eq_some_iff.1 h).2
    simpa using sign

/-- The exponent at `i`: its letter, perhaps a sign, and at least one figure. -/
def scanExponent (t : Text) (i : Nat) : Option Exponent :=
  let sign := signAt t (i + 1)
  let figures := figuresAt t (i + 1 + sign.length)
  if h : (t[i]? = some (ofChar 'e') ∨ t[i]? = some (ofChar 'E')) ∧ figures ≠ [] then
    some ⟨sign, figures, isSign_signAt t _, isDigits_figuresAt t _, h.2⟩
  else none

/-- A point at `i` and at least one figure, after the figures `whole`, and perhaps an exponent; with
the place where the numeral ends. -/
def pointedAt (whole : Text) (isDigits : Decimal.IsDigits whole) (t : Text) (i : Nat) :
    Option (Magnitude × Nat) :=
  let fraction := figuresAt t (i + 1)
  if h : t[i]? = some (ofChar '.') ∧ fraction ≠ [] then
    let e := scanExponent t (i + 1 + fraction.length)
    some (.pointed whole fraction e isDigits (isDigits_figuresAt t _) h.2,
      i + 1 + fraction.length + (tail e).length)
  else none

/-- At least one figure at `i`, perhaps a point, and an exponent. -/
def scaledAt (t : Text) (i : Nat) : Option (Magnitude × Nat) :=
  let whole := figuresAt t i
  if h : whole ≠ [] then
    let point := i + whole.length
    let j := if t[point]? = some (ofChar '.') then point + 1 else point
    (scanExponent t j).map fun e => (.scaled whole e (isDigits_figuresAt t _) h, j + e.text.length)
  else none

/-- The decimal without a sign at `i`.  Where a point and a figure come after the longest run of
figures, which may be empty then, they belong to it; otherwise the figures have to have an exponent,
and there have to be some. -/
def scanMagnitude (t : Text) (i : Nat) : Option (Magnitude × Nat) :=
  let whole := figuresAt t i
  pointedAt whole (isDigits_figuresAt t i) t (i + whole.length) <|> scaledAt t i

/-- The number at `i`: an optional minus, the numeral, and nothing that goes on as a word. -/
def scanReal (t : Text) (i : Nat) : Upshot :=
  let negative : Bool := t[i]? = some (ofChar '-')
  match scanMagnitude t (if negative then i + 1 else i) with
  | none => .declined
  | some (m, j) =>
    (ending t j).andThen fun _ _ => .matched (.float (.ofDecimal (m.decimal negative))) j

/-! ### Values -/

theorem digitsValue_eq {t : Text} (h : Decimal.IsDigits t) :
    Decimal.digitsValue t = number 10 t := by
  rw [Decimal.digitsValue, Numeral.readFrom?_eq (isDigits_iff.1 h)]
  simp

theorem Exponent.isExponent (e : Exponent) : Decimal.IsExponent e.text :=
  ⟨e.sign, e.figures, rfl, e.isSign, e.filled, e.isDigits⟩

theorem Exponent.readTail?_text (e : Exponent) : Decimal.readTail? e.text = some e.value := by
  obtain ⟨sign, figures, isSign, isDigits, filled⟩ := e
  have read := Numeral.read?_eq_number (isDigits_iff.1 isDigits) filled
  rcases isSign with rfl | rfl | rfl
  · obtain ⟨d, rest, rfl⟩ := List.exists_cons_of_ne_nil filled
    have minus : d ≠ ofChar '-' := fun hd =>
      isDigits.head_ne filled [] (c := '-') (by simp) (by simp [hd])
    have plus : d ≠ ofChar '+' := fun hd =>
      isDigits.head_ne filled [] (c := '+') (by simp) (by simp [hd])
    simp [Decimal.readTail?, Decimal.readExponent?, text, value, minus, plus, read]
  · simp [Decimal.readTail?, Decimal.readExponent?, text, value, read,
      show ofChar '+' ≠ ofChar '-' by decide]
  · simp [Decimal.readTail?, Decimal.readExponent?, text, value, read]

theorem isTail_tail (e : Option Exponent) : Decimal.IsTail (tail e) := by
  cases e with
  | none => exact .inl rfl
  | some e => exact .inr e.isExponent

theorem readTail?_tail (e : Option Exponent) :
    Decimal.readTail? (tail e) = some ((e.map Exponent.value).getD 0) := by
  cases e with
  | none => rfl
  | some e => exact e.readTail?_text

namespace Magnitude

variable (m : Magnitude) (negative : Bool)

theorem readUnsigned?_text :
    Decimal.readUnsigned? m.text =
      some ((m.decimal negative).digits, (m.decimal negative).exponent) := by
  cases m with
  | pointed whole fraction e isDigits areDigits filled =>
    have both : Decimal.IsDigits (whole ++ fraction) := fun c hc =>
      (List.mem_append.1 hc).elim (isDigits c) (areDigits c)
    rw [text, Decimal.readUnsigned?_pointed isDigits areDigits (.inr filled)
      (isTail_tail e).noDigitAhead, readTail?_tail, digitsValue_eq both]
    rfl
  | scaled whole e isDigits filled =>
    rw [text, Decimal.readUnsigned?_scaled isDigits filled e.isExponent, e.readTail?_text,
      digitsValue_eq isDigits]
    rfl

theorem head?_text : m.text.head? ≠ some (ofChar '-') := by
  cases m with
  | pointed whole fraction e isDigits areDigits filled =>
    by_cases none : whole = []
    · simp [text, none, show ofChar '.' ≠ ofChar '-' by decide]
    · exact isDigits.head_ne none _ (by simp)
  | scaled whole e isDigits filled => exact isDigits.head_ne filled _ (by simp)

/-- What is read of the text with its sign is the decimal that is denoted. -/
theorem read?_text : Decimal.read? ((if negative then [ofChar '-'] else []) ++ m.text) =
    some (m.decimal negative) := by
  have sign : (m.decimal negative).negative = negative := by cases m <;> rfl
  rw [Decimal.read?_of_readUnsigned? (m.readUnsigned?_text negative) m.head?_text]
  generalize m.decimal negative = d at sign ⊢
  rw [← sign]

end Magnitude

/-! ### The parts of a numeral -/

section Numerals

variable {g : Grammar} {t : Text} {depth i : Nat}

/-- A run of figures as it stands in a text. -/
def digitRunUpshot (t : Text) (i : Nat) : Upshot :=
  if figuresAt t i = [] then .declined
  else .matched (.text (figuresAt t i)) (i + (figuresAt t i).length)

theorem finds_digitRun : digitRun.Finds g (.ofText t) depth i (digitRunUpshot t i) :=
  Parser.finds_map_many1 (w := fun run => .ok (.text run)) contains_decimal fun run _ _ =>
    Value.joined_of_joinedText (Value.joinedText_chars run)

theorem finds_point : point.Finds g (.ofText t) depth i
    (if t[i]? = some (ofChar '.') then .matched (.text [ofChar '.']) (i + 1) else .declined) := by
  have found : point.Finds g (.ofText t) depth i _ := Parser.finds_word _
  have word : Upshot.ofWord (.ofChars ['.']) t i = _ := Upshot.ofWord_singleton (ofChar '.') t i
  rwa [word] at found

theorem exists_finds_optional_point (g : Grammar) (t : Text) (depth i : Nat) :
    ∃ v, (Parser.optional point).Finds g (.ofText t) depth i
      (.matched v (if t[i]? = some (ofChar '.') then i + 1 else i)) := by
  have found : (Parser.optional point).Finds g (.ofText t) depth i _ :=
    Parser.finds_optional finds_point
  by_cases stands : t[i]? = some (ofChar '.')
  · rw [if_pos stands] at found ⊢
    exact ⟨_, found⟩
  · rw [if_neg stands] at found ⊢
    exact ⟨_, found⟩

theorem exists_finds_letter (g : Grammar) (t : Text) (depth i : Nat) :
    ∃ v, (Parser.charOf (.ofChars ['e', 'E'])).Finds g (.ofText t) depth i
      (if t[i]? = some (ofChar 'e') ∨ t[i]? = some (ofChar 'E') then .matched v (i + 1)
        else .declined) := by
  have found : (Parser.charOf (.ofChars ['e', 'E'])).Finds g (.ofText t) depth i _ :=
    Parser.finds_charOf _
  unfold Upshot.ofItem at found
  cases hc : t[i]? with
  | none =>
    rw [hc] at found
    exact ⟨.nothing, by simpa using found⟩
  | some c =>
    rw [hc] at found
    exact ⟨.char c, by simpa [Text.ofChars] using found⟩

/-- A sign is read where there is one. -/
theorem exists_finds_sign (g : Grammar) (t : Text) (depth i : Nat) :
    ∃ v : Value, v.asOptionalText = .ok (signAt t i) ∧
      (Parser.optional (.charOf (.ofChars ['+', '-']))).Finds g (.ofText t) depth i
        (.matched v (i + (signAt t i).length)) := by
  have found : (Parser.optional (.charOf (.ofChars ['+', '-']))).Finds g (.ofText t) depth i _ :=
    Parser.finds_optional (Parser.finds_charOf _)
  unfold Upshot.ofItem at found
  unfold signAt
  cases hc : t[i]? with
  | none =>
    rw [hc] at found
    exact ⟨.nothing, rfl, found⟩
  | some c =>
    rw [hc] at found
    dsimp only at found
    by_cases sign : c = ofChar '+' ∨ c = ofChar '-'
    · rw [if_pos (by simpa [Text.ofChars] using sign)] at found
      rw [Option.filter_some_pos (by simpa using sign)]
      exact ⟨.char c, rfl, found⟩
    · rw [if_neg (by simpa [Text.ofChars] using sign)] at found
      rw [Option.filter_some_neg (by simpa using sign)]
      exact ⟨.nothing, rfl, found⟩

/-- An exponent as it stands in a text. -/
def exponentUpshot (t : Text) (i : Nat) : Upshot :=
  match scanExponent t i with
  | some e => .matched (.text e.text) (i + e.text.length)
  | none => .declined

theorem finds_exponent : exponent.Finds g (.ofText t) depth i (exponentUpshot t i) := by
  obtain ⟨v, letter⟩ := exists_finds_letter g t depth i
  unfold exponentUpshot scanExponent
  by_cases introduced : t[i]? = some (ofChar 'e') ∨ t[i]? = some (ofChar 'E')
  · rw [if_pos introduced] at letter
    obtain ⟨sign, hs, signed⟩ := exists_finds_sign g t depth (i + 1)
    have parts := Parser.finds_seq_matched (Parser.finds_seq_matched letter signed)
      (finds_digitRun (i := i + 1 + (signAt t (i + 1)).length))
    unfold digitRunUpshot at parts
    by_cases none : figuresAt t (i + 1 + (signAt t (i + 1)).length) = []
    · rw [if_pos none] at parts
      rw [dif_neg fun h => h.2 none]
      exact Parser.finds_map_declined parts
    · rw [if_neg none] at parts
      rw [dif_pos ⟨introduced, none⟩]
      dsimp only
      rw [Exponent.length_text, ← Nat.add_assoc, ← Nat.add_assoc]
      refine Parser.finds_map_matched parts ?_
      simp only [hs, bind, Except.bind]
      rfl
  · rw [if_neg introduced] at letter
    rw [dif_neg fun h => introduced h.1]
    exact Parser.finds_map_declined (Parser.finds_seq_declined (Parser.finds_seq_declined letter))

/-- An exponent is read where there is one. -/
theorem exists_finds_tail (g : Grammar) (t : Text) (depth i : Nat) :
    ∃ v : Value, v.asOptionalText = .ok (tail (scanExponent t i)) ∧
      (Parser.optional exponent).Finds g (.ofText t) depth i
        (.matched v (i + (tail (scanExponent t i)).length)) := by
  have found : (Parser.optional exponent).Finds g (.ofText t) depth i _ :=
    Parser.finds_optional finds_exponent
  unfold exponentUpshot at found
  cases he : scanExponent t i with
  | none =>
    rw [he] at found
    exact ⟨.nothing, rfl, found⟩
  | some e =>
    rw [he] at found
    exact ⟨.text e.text, rfl, found⟩

/-! ### Numerals without a sign -/

/-- A numeral that was scanned, as the parsers come to it. -/
def magnitudeUpshot : Option (Magnitude × Nat) → Upshot
  | some (m, j) => .matched (.text m.text) j
  | none => .declined

variable {whole : Text} {isDigits : Decimal.IsDigits whole} {k : Nat} {u : Value} {q : Parser}
  {f : Value → Except Fault Value}

/-- With or without figures before the point, what comes after it is read alike. -/
theorem finds_pointedAt
    (hq : q.Finds g (.ofText t) depth i
      (if t[k]? = some (ofChar '.') then .matched u (k + 1) else .declined))
    (hf : ∀ fraction e tail, e.asOptionalText = .ok tail →
      f (.tuple [.tuple [u, .text fraction], e]) =
        .ok (.text (whole ++ ofChar '.' :: (fraction ++ tail)))) :
    (Parser.map (.seq (.seq q digitRun) (.optional exponent)) f).Finds g (.ofText t) depth i
      (magnitudeUpshot (pointedAt whole isDigits t k)) := by
  unfold pointedAt
  by_cases stands : t[k]? = some (ofChar '.')
  · rw [if_pos stands] at hq
    have fraction := Parser.finds_seq_matched hq (finds_digitRun (i := k + 1))
    unfold digitRunUpshot at fraction
    by_cases bare : figuresAt t (k + 1) = []
    · rw [if_pos bare] at fraction
      rw [dif_neg fun h => h.2 bare]
      exact Parser.finds_map_declined (Parser.finds_seq_declined fraction)
    · rw [if_neg bare] at fraction
      rw [dif_pos ⟨stands, bare⟩]
      obtain ⟨e, he, tail⟩ := exists_finds_tail g t depth
        (k + 1 + (figuresAt t (k + 1)).length)
      exact Parser.finds_map_matched (Parser.finds_seq_matched fraction tail) (hf _ e _ he)
  · rw [if_neg stands] at hq
    rw [dif_neg fun h => stands h.1]
    exact Parser.finds_map_declined (Parser.finds_seq_declined (Parser.finds_seq_declined hq))

theorem finds_pointed : pointed.Finds g (.ofText t) depth i
    (magnitudeUpshot (if figuresAt t i = [] then none
      else pointedAt (figuresAt t i) (isDigits_figuresAt t i) t (i + (figuresAt t i).length))) := by
  have whole : digitRun.Finds g (.ofText t) depth i _ := finds_digitRun
  unfold digitRunUpshot at whole
  by_cases none : figuresAt t i = []
  · rw [if_pos none] at whole ⊢
    exact Parser.finds_map_declined (Parser.finds_seq_declined (Parser.finds_seq_declined
      (Parser.finds_seq_declined whole)))
  · rw [if_neg none] at whole ⊢
    have point := Parser.finds_seq_matched whole finds_point
    rw [apply_ite (Upshot.output _)] at point
    refine finds_pointedAt point fun fraction e tail he => ?_
    simp only [he, bind, Except.bind]
    simp [Value.asText, pure, Except.pure]

theorem finds_fractional : fractional.Finds g (.ofText t) depth i
    (magnitudeUpshot (pointedAt [] isDigits_nil t i)) := by
  refine finds_pointedAt finds_point fun fraction e tail he => ?_
  simp only [he, bind, Except.bind]
  simp [Value.asText, pure, Except.pure]

theorem finds_scaled : scaled.Finds g (.ofText t) depth i (magnitudeUpshot (scaledAt t i)) := by
  have whole : digitRun.Finds g (.ofText t) depth i _ := finds_digitRun
  unfold digitRunUpshot at whole
  unfold scaledAt
  by_cases none : figuresAt t i = []
  · rw [if_pos none] at whole
    rw [dif_neg (not_not.2 none)]
    exact Parser.finds_map_declined (Parser.finds_seq_declined (Parser.finds_seq_declined whole))
  rw [if_neg none] at whole
  rw [dif_pos none]
  dsimp only
  generalize i + (figuresAt t i).length = k at whole
  obtain ⟨v, point⟩ := exists_finds_optional_point g t depth k
  generalize (if t[k]? = some (ofChar '.') then k + 1 else k) = j at point
  have parts := Parser.finds_seq_matched (Parser.finds_seq_matched whole point)
    (finds_exponent (i := j))
  unfold exponentUpshot at parts
  cases he : scanExponent t j with
  | none =>
    rw [he] at parts
    exact Parser.finds_map_declined parts
  | some e =>
    rw [he] at parts
    exact Parser.finds_map_matched parts rfl

theorem magnitudeUpshot_orElse (x y : Option (Magnitude × Nat)) :
    (magnitudeUpshot x).orElse (magnitudeUpshot y) = magnitudeUpshot (x <|> y) := by
  cases x <;> rfl

/-- A figure is no point. -/
theorem pointedAt_of_figures (filled : figuresAt t i ≠ []) :
    pointedAt whole isDigits t i = none := by
  refine dif_neg fun h => filled ?_
  rw [figuresAt, drop_eq_cons h.1]
  exact List.takeWhile_cons_of_neg (by decide)

theorem scaledAt_of_none (none : figuresAt t i = []) : scaledAt t i = .none :=
  dif_neg (not_not.2 none)

/-- The scan takes the first of the three forms of a numeral that stands. -/
theorem scanMagnitude_eq : scanMagnitude t i =
    ((if figuresAt t i = [] then none
      else pointedAt (figuresAt t i) (isDigits_figuresAt t i) t (i + (figuresAt t i).length)) <|>
    (scaledAt t i <|> pointedAt [] isDigits_nil t i)) := by
  unfold scanMagnitude
  by_cases none : figuresAt t i = []
  · rw [if_pos none, scaledAt_of_none none]
    generalize isDigits_figuresAt t i = isDigits
    simp [none]
  · -- the form that starts with a point cannot stand where a figure does
    rw [if_neg none, pointedAt_of_figures none]
    simp

theorem finds_magnitude :
    (Parser.choice pointed [scaled, fractional]).Finds g (.ofText t) depth i
      (magnitudeUpshot (scanMagnitude t i)) := by
  have found : (Parser.choice pointed [scaled, fractional]).Finds g (.ofText t) depth i _ :=
    Parser.finds_choice
      (.cons finds_pointed (.cons finds_scaled (.cons finds_fractional .nil)))
  rwa [Upshot.first_cons, Upshot.first_cons, Upshot.first_cons, Upshot.first_nil,
    Upshot.orElse_declined_right, magnitudeUpshot_orElse, magnitudeUpshot_orElse,
    ← scanMagnitude_eq] at found

/-! ### Signs and what follows -/

theorem nearestNumber_text (m : Magnitude) (negative : Bool) :
    nearestNumber (.tuple [signValue negative, .text m.text]) =
      .ok (.float (.ofDecimal (m.decimal negative))) := by
  have sign : (signValue negative).asOptionalText =
      .ok (if negative then [ofChar '-'] else []) := by
    cases negative <;> rfl
  simp only [nearestNumber, sign, Value.asText, bind, Except.bind, m.read?_text negative]

/-- A number before what follows it is looked at. -/
def numberUpshot (negative : Bool) : Option (Magnitude × Nat) → Upshot
  | some (m, j) => .matched (.float (.ofDecimal (m.decimal negative))) j
  | none => .declined

theorem finds_nearestNumber {p : Parser} {negative : Bool} {x : Option (Magnitude × Nat)}
    (found : p.Finds g (.ofText t) depth i
      ((magnitudeUpshot x).output fun v => .tuple [signValue negative, v])) :
    (Parser.map p nearestNumber).Finds g (.ofText t) depth i (numberUpshot negative x) := by
  cases x with
  | none => exact Parser.finds_map_declined found
  | some m => exact Parser.finds_map_matched found (nearestNumber_text m.1 negative)

theorem finds_real : real.Finds g (.ofText t) depth i (scanReal t i) := by
  have number : (Parser.map (signed (.choice pointed [scaled, fractional])) nearestNumber).Finds
      g (.ofText t) depth i _ :=
    finds_map_signed (y := fun negative j => numberUpshot negative (scanMagnitude t j))
      (fun j => finds_magnitude (i := j)) fun _ _ => finds_nearestNumber
  have found : real.Finds g (.ofText t) depth i _ :=
    Parser.finds_lookingAt number fun _ j _ => finds_noLetterAfter j
  unfold scanReal
  dsimp only at found ⊢
  cases h : scanMagnitude t (if decide (t[i]? = some (ofChar '-')) then i + 1 else i) with
  | none =>
    rw [h] at found
    exact found
  | some m =>
    rw [h] at found
    exact found

theorem figuresAt_of_head (h : ∀ a, t[i]? = some a → isFigure 10 a = false) :
    figuresAt t i = [] := by
  unfold figuresAt
  cases hi : t[i]? with
  | none => rw [List.drop_of_length_le (List.getElem?_eq_none_iff.1 hi), List.takeWhile_nil]
  | some a =>
    rw [drop_eq_cons hi]
    exact List.takeWhile_cons_of_neg (by simp [h a hi])

/-- Figures, and perhaps a point, are no numeral if neither a figure nor an exponent comes next. -/
theorem scanMagnitude_of_integer
    (h : let point := i + (figuresAt t i).length
      ∀ a, t[if t[point]? = some (ofChar '.') then point + 1 else point]? = some a →
        isFigure 10 a = false ∧ a ≠ ofChar 'e' ∧ a ≠ ofChar 'E') :
    scanMagnitude t i = none := by
  have fractionless :
      pointedAt (figuresAt t i) (isDigits_figuresAt t i) t (i + (figuresAt t i).length) = none := by
    refine dif_neg fun pointed => pointed.2 (figuresAt_of_head fun a ha => ?_)
    dsimp only at h
    rw [if_pos pointed.1] at h
    exact (h a ha).1
  have unscaled : scaledAt t i = none := by
    unfold scaledAt
    by_cases filled : figuresAt t i ≠ []
    · rw [dif_pos filled, Option.map_eq_none_iff]
      refine dif_neg fun exponent => ?_
      rcases exponent.1 with letter | letter
      · exact (h _ letter).2.1 rfl
      · exact (h _ letter).2.2 rfl
    · exact dif_neg filled
  rw [scanMagnitude, fractionless, unscaled]
  rfl

end Numerals

end Lexeme

/-- The parser of decimals comes to what the scan says on a stream of a text that stands anywhere:
a numeral right before a letter or an underscore fails at that one item, as the letter of an
exponent that is not complete is, and any other numeral matches and leaves the stream right after
it; without one, and where it fails, the stream stays as it was.  Figures alone, or with nothing
but a point after them, never match. -/
theorem reals_follow_scan (g : Grammar) (t : Text) (depth : Nat) {c : Cursor}
    (hc : c.Placed (.ofText t)) :
    (Lexeme.real.runWithin g (.ofText t) depth c).Settles c (Lexeme.scanReal t c.position) ∧
    let first := if t[c.position]? = some (ofChar '-') then c.position + 1 else c.position
    let point := first + (Lexeme.figuresAt t first).length
    let next := if t[point]? = some (ofChar '.') then point + 1 else point
    (∀ a, t[next]? = some a → isFigure 10 a = false ∧ a ≠ ofChar 'e' ∧ a ≠ ofChar 'E') →
      (Lexeme.real.runWithin g (.ofText t) depth c).Settles c .declined := by
  have found : Lexeme.real.Finds g (.ofText t) depth c.position _ := Lexeme.finds_real
  have settles := found.settles hc
  refine ⟨settles, fun integer => ?_⟩
  have unscanned := Lexeme.scanMagnitude_of_integer integer
  rw [Lexeme.scanReal] at settles
  simp only [decide_eq_true_eq, unscanned] at settles
  exact settles

/-- In the middle of a text there is a number with a letter and a sign after it. -/
def Text.unfinishedExponent : Text := .ofChars ['a', '-', '1', '.', '5', 'e', '+']

/-- The letter of the exponent is refused, and figures with a point are no number. -/
theorem reals_follow_scan_unfinished_exponent :
    (Cursor.point 1).Placed (.ofText Text.unfinishedExponent) ∧
      (Lexeme.real.runWithin .empty (.ofText Text.unfinishedExponent) 0 (.point 1)).ending =
        .answered (.failed (.located 5 1 (.ofString "Unexpected character `" ++ .ofChars ['e'] ++
          .ofString "` after a number."))) ∧
      (Lexeme.real.runWithin .empty (.ofText Text.unfinishedExponent) 0 (.point 1)).state =
        .point 1 ∧
      (Lexeme.real.runWithin .empty (.ofText (.ofChars ['1', '2', '.'])) 0 .start).ending =
        .answered .notMatched := by
  have placed : (Cursor.point 1).Placed (.ofText Text.unfinishedExponent) :=
    Cursor.placed_point (by decide)
  have settles := (reals_follow_scan .empty Text.unfinishedExponent 0 placed).1
  have scan : Lexeme.scanReal Text.unfinishedExponent 1 =
      .failed (.located 5 1 (.ofString "Unexpected character `" ++ .ofChars ['e'] ++
        .ofString "` after a number.")) := rfl
  rw [Cursor.position_point, scan] at settles
  have plain := (reals_follow_scan .empty (.ofChars ['1', '2', '.']) 0
    (Cursor.placed_start (.ofText (.ofChars ['1', '2', '.'])))).2 nofun
  exact ⟨placed, settles.1, settles.2, plain.1⟩

end Backtrack
