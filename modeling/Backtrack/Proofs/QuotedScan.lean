import Backtrack.Lexeme.Quoted
import Backtrack.Proofs.Figures
import Backtrack.Proofs.Scanning

/-!
# Quoted texts as a scan

A quoted text read in one pass over the text: the first quote that stands at the place, then
escapes, the closing quote and plain characters, in this order, up to the quote or to the first
error.  The parser of quoted texts comes to exactly what the scan comes to, whatever the quotes, the
escape and the escape sequences are, errors and their places included.

* `Lexeme.Quoting.escapedAt`: what stands after an escape.
* `Lexeme.Quoting.scanFrom`, `Lexeme.Quoting.scan`: the scan.
* `Lexeme.Quoting.exists_finds_scan`: the parser finds what the scan says.
* `quoted_texts_follow_scan`: what that means for the stream.
-/

namespace Backtrack

open CodePoint (ofChar)
open Numeral (isFigure number)

namespace Lexeme

/-! ### The scan -/

/-- The code point whose number the four hexadecimal figures in front of a text make. -/
def fourFigures? (t : Text) : Option CodePoint :=
  let four := t.take 4
  if four.length = 4 ∧ four.all (isFigure 16) then some (Fin.ofNat _ (number 16 four)) else none

/-- The error of a `u` at `k` without four figures after it. -/
def shortCodePoint (k : Nat) : Value :=
  .located k 1 (.ofString "Expected 4 hexadecimal characters after unicode escape sequence.")

namespace Quoting

/-- The error of an escape at `i` with nothing after it. -/
def danglingEscape (q : Quoting) (i : Nat) : Value :=
  .located i q.escape.length
    (.ofString "Expected a character to escape after `" ++ q.escape ++ .ofString "`.")

/-- The error of a missing closing quote at `i`. -/
def missingQuote (quote : Text) (opening : Span) (i : Nat) : Value :=
  .located i 0
    (.ofString "Expected closing quote `" ++ quote ++ .ofString "` for the quote opened at " ++
      .ofString opening.brief ++ .ofString ".")

/-- What stands after the escape at `i`, as the text that it stands for and the place where it ends:
the result of the first sequence that stands there, the code point of a `u` with four figures, or
any other item itself. -/
def escapedAt (q : Quoting) (t : Text) (i : Nat) : Except Value (Text × Nat) :=
  let k := i + q.escape.length
  match q.sequences.find? fun s => s.1 <+: t.drop k with
  | some s => .ok (s.2, k + s.1.length)
  | none =>
    match t[k]? with
    | none => .error (q.danglingEscape i)
    | some c =>
      if c = ofChar 'u' then
        match fourFigures? (t.drop (k + 1)) with
        | some p => .ok ([p], k + 5)
        | none => .error (shortCodePoint k)
      else .ok ([c], k + 1)

theorem lt_of_escapedAt {q : Quoting} {t piece : Text} {i j : Nat} (h : q.escape ≠ [])
    (hj : q.escapedAt t i = .ok (piece, j)) : i < j := by
  have positive := List.length_pos_iff.2 h
  unfold escapedAt at hj
  dsimp only at hj
  split at hj
  · cases hj
    omega
  split at hj
  · cases hj
  split at hj
  · split at hj
    · cases hj
      omega
    · cases hj
  · cases hj
    omega

/-- Reads on from `i` up to the closing quote, after the text that is read already. -/
def scanFrom (q : Quoting) (h : q.escape ≠ []) (quote : Text) (opening : Span) (t : Text) (i : Nat)
    (done : Text) : Upshot :=
  if _hi : q.escape <+: t.drop i then
    match _hj : q.escapedAt t i with
    | .error e => .failed e
    | .ok (piece, j) => scanFrom q h quote opening t j (done ++ piece)
  else if quote <+: t.drop i then .matched (.text done) (i + quote.length)
  else
    match _hc : t[i]? with
    | some c => scanFrom q h quote opening t (i + 1) (done ++ [c])
    | none => .failed (missingQuote quote opening i)
termination_by t.length - i
decreasing_by
  · have lt := lt_of_escapedAt h _hj
    have within := _hi.length_le
    have positive := List.length_pos_iff.2 h
    rw [List.length_drop] at within
    omega
  · have within := (List.getElem?_eq_some_iff.1 _hc).1
    omega

/-- The quoted text at `i`. -/
def scan (q : Quoting) (h : q.escape ≠ []) (t : Text) (i : Nat) : Upshot :=
  match q.quotes.find? fun quote => quote <+: t.drop i with
  | some quote =>
    q.scanFrom h quote ⟨i, i + quote.length, Nat.le_add_right i quote.length⟩ t (i + quote.length) []
  | none => .declined

variable {q : Quoting} {h : q.escape ≠ []} {quote t piece done : Text} {opening : Span} {i j : Nat}

theorem scanFrom_escaped (hi : q.escape <+: t.drop i) (hj : q.escapedAt t i = .ok (piece, j)) :
    q.scanFrom h quote opening t i done = q.scanFrom h quote opening t j (done ++ piece) := by
  rw [scanFrom, dif_pos hi]
  split <;> rename_i same <;> rw [hj] at same <;> cases same
  rfl

theorem scanFrom_broken {e : Value} (hi : q.escape <+: t.drop i) (he : q.escapedAt t i = .error e) :
    q.scanFrom h quote opening t i done = .failed e := by
  rw [scanFrom, dif_pos hi]
  split <;> rename_i same <;> rw [he] at same <;> cases same
  rfl

theorem scanFrom_closed (hi : ¬q.escape <+: t.drop i) (hq : quote <+: t.drop i) :
    q.scanFrom h quote opening t i done = .matched (.text done) (i + quote.length) := by
  rw [scanFrom, dif_neg hi, if_pos hq]

theorem scanFrom_plain {c : CodePoint} (hi : ¬q.escape <+: t.drop i) (hq : ¬quote <+: t.drop i)
    (hc : t[i]? = some c) :
    q.scanFrom h quote opening t i done = q.scanFrom h quote opening t (i + 1) (done ++ [c]) := by
  rw [scanFrom, dif_neg hi, if_neg hq]
  split <;> rename_i same <;> rw [hc] at same <;> cases same
  rfl

theorem scanFrom_unclosed (hi : ¬q.escape <+: t.drop i) (hq : ¬quote <+: t.drop i)
    (hc : t[i]? = none) :
    q.scanFrom h quote opening t i done = .failed (missingQuote quote opening i) := by
  rw [scanFrom, dif_neg hi, if_neg hq]
  split <;> rename_i same <;> rw [hc] at same
  cases same

end Quoting

/-! ### What stands after an escape -/

section Parsers

variable {g : Grammar} {t : Text} {depth i : Nat}

theorem codePoint_of_joinedText {four : Text} {digits : Value} (v : Value)
    (joined : digits.joinedText = .ok four) (length : four.length = 4)
    (figures : ∀ c ∈ four, isFigure 16 c = true) :
    codePoint (.tuple [v, digits]) = .ok (.char (Fin.ofNat _ (number 16 four))) := by
  have filled : four ≠ [] := List.ne_nil_of_length_pos (by omega)
  -- four hexadecimal figures stay below the last code point
  have small : number 16 four < 0x110000 := by
    have bound := Numeral.number_lt (by decide) figures
    rw [length] at bound
    omega
  have same : (⟨number 16 four, small⟩ : CodePoint) = Fin.ofNat _ (number 16 four) :=
    Fin.ext (Nat.mod_eq_of_lt small).symm
  simp only [codePoint, joined, bind, Except.bind,
    Numeral.read?_eq_number figures filled, small, dif_pos, same]

/-- What the parser of code points by number finds. -/
def codePointUpshot (t : Text) (k : Nat) : Upshot :=
  if t[k]? = some (ofChar 'u') then
    match fourFigures? (t.drop (k + 1)) with
    | some p => .matched (.char p) (k + 5)
    | none => .failed (shortCodePoint k)
  else .declined

theorem finds_codePointEscape :
    codePointEscape.Finds g (.ofText t) depth i (codePointUpshot t i) := by
  have figures : (Parser.times (.charOf Text.Class.hexadecimal) (.exactly 4)).Finds g (.ofText t)
      depth (i + 1) _ := Parser.finds_times_charOf _ _
  have hexadecimal : Text.Class.hexadecimal.contains = isFigure 16 :=
    funext Radix.exact_hexadecimal
  rw [Upshot.ofRun_exactly, hexadecimal] at figures
  generalize hfour : (t.drop (i + 1)).take 4 = four at figures
  have required := Parser.finds_require figures (e := shortCodePoint i)
    fun _ => reportFrom_point 1 _ i
  have found := Parser.finds_seq (Parser.finds_word (.ofChars ['u']))
    (y := fun _ _ => (if four.length = 4 ∧ four.all (isFigure 16) then
        Upshot.matched (.list (four.map Value.char)) (i + 5)
      else .declined).orElse (.failed (shortCodePoint i)))
    fun v j hv => by
      obtain ⟨-, rfl⟩ := Upshot.ofWord_eq_matched hv
      exact required
  have word : Upshot.ofWord (.ofChars ['u']) t i = _ := Upshot.ofWord_singleton (ofChar 'u') t i
  rw [word] at found
  unfold codePointUpshot fourFigures?
  dsimp only
  rw [hfour]
  by_cases u : t[i]? = some (ofChar 'u')
  · rw [if_pos u] at found ⊢
    by_cases full : four.length = 4 ∧ four.all (isFigure 16) = true
    · rw [if_pos full]
      simp only [if_pos full] at found
      exact Parser.finds_map_matched found
        (codePoint_of_joinedText _ (Value.joinedText_chars _) full.1 (List.all_eq_true.1 full.2))
    · rw [if_neg full]
      simp only [if_neg full] at found
      exact Parser.finds_map_unmatched found nofun
  · rw [if_neg u] at found ⊢
    exact Parser.finds_map_declined found

namespace Quoting

variable {q : Quoting}

/-- What a sequence at `k` stands for. -/
def sequenceUpshot (t : Text) (k : Nat) (s : Text × Text) : Upshot :=
  if s.1 <+: t.drop k then .matched (.text s.2) (k + s.1.length) else .declined

/-- What the parser of all that may follow an escape finds. -/
def escapableUpshot (q : Quoting) (t : Text) (k : Nat) : Upshot :=
  (Upshot.first (q.sequences.map (sequenceUpshot t k))).orElse
    ((codePointUpshot t k).orElse (.ofItem (fun _ => true) t k))

theorem exists_escapable (hq : q.advanced = []) :
    ∃ p ps, q.escapable = .choice p ps ∧
      p :: ps = q.sequences.map (fun s => Parser.map (.word s.1) fun _ => .ok (.text s.2)) ++
        [codePointEscape, .item] := by
  unfold escapable
  rw [hq, List.append_nil]
  cases q.sequences with
  | nil => exact ⟨_, _, rfl, rfl⟩
  | cons s sequences => exact ⟨_, _, rfl, rfl⟩

theorem finds_sequence (s : Text × Text) :
    (Parser.map (.word s.1) fun _ => .ok (.text s.2)).Finds g (.ofText t) depth i
      (sequenceUpshot t i s) := by
  have word : (Parser.word s.1).Finds g (.ofText t) depth i _ := Parser.finds_word s.1
  have found := Parser.finds_map_output (f := fun _ => .ok (.text s.2)) (h := fun _ => .text s.2)
    word fun _ _ _ => rfl
  rwa [Upshot.output, Upshot.ofWord_andThen] at found

theorem finds_escapable (hq : q.advanced = []) :
    q.escapable.Finds g (.ofText t) depth i (q.escapableUpshot t i) := by
  obtain ⟨p, ps, choice, alternatives⟩ := exists_escapable hq
  have listed : List.Forall₂ (fun p x => Parser.Finds g (.ofText t) depth p i x) (p :: ps)
      (q.sequences.map (sequenceUpshot t i) ++
        [codePointUpshot t i, .ofItem (fun _ => true) t i]) := by
    rw [alternatives]
    refine List.rel_append ?_ (.cons finds_codePointEscape (.cons Parser.finds_item .nil))
    exact Parser.forall₂_finds_map fun s _ => finds_sequence s
  have found := Parser.finds_choice listed
  rw [Upshot.first_append] at found
  rw [choice, escapableUpshot]
  simpa only [Upshot.first_cons, Upshot.first_nil, Upshot.orElse_declined_right] using found

/-- What stands after an escape, as an upshot. -/
def readingUpshot : Except Value (Text × Nat) → Upshot
  | .ok (piece, j) => .matched (.text piece) j
  | .error e => .failed e

theorem escapableUpshot_orElse (q : Quoting) (t : Text) (i : Nat) :
    (q.escapableUpshot t (i + q.escape.length)).orElse (.failed (q.danglingEscape i)) =
      readingUpshot (q.escapedAt t i) := by
  unfold escapableUpshot escapedAt
  dsimp only
  generalize i + q.escape.length = k
  -- a sequence that stands is decisive; only the end of the input leaves no alternative
  have sequences : Upshot.first (q.sequences.map (sequenceUpshot t k)) = _ :=
    Upshot.first_map (P := fun s : Text × Text => s.1 <+: t.drop k)
      (f := fun s : Text × Text => .matched (.text s.2) (k + s.1.length)) (fun _ _ => nofun)
      q.sequences
  rw [sequences]
  cases q.sequences.find? fun s => s.1 <+: t.drop k with
  | some s => rfl
  | none =>
    unfold codePointUpshot Upshot.ofItem
    cases hc : t[k]? with
    | none => rfl
    | some c =>
      by_cases u : c = ofChar 'u'
      · simp only [u, if_true, Upshot.orElse_declined]
        cases fourFigures? (t.drop (k + 1)) <;> rfl
      · simp only [u, Option.some.injEq, if_false, if_true, Upshot.orElse_declined,
          Upshot.orElse_matched]
        rfl

theorem finds_escaped (hq : q.advanced = []) :
    q.escaped.Finds g (.ofText t) depth i
      (if q.escape <+: t.drop i then readingUpshot (q.escapedAt t i) else .declined) := by
  have found : q.escaped.Finds g (.ofText t) depth i _ :=
    Parser.finds_second (Parser.finds_word q.escape)
      (y := fun _ _ => readingUpshot (q.escapedAt t i)) fun v j hv => by
        obtain ⟨-, rfl⟩ := Upshot.ofWord_eq_matched hv
        rw [← escapableUpshot_orElse]
        exact Parser.finds_require (finds_escapable hq) fun _ => reportFrom_point _ _ i
  rwa [Upshot.ofWord_andThen] at found

/-! ### What stands between the quotes -/

theorem finds_plain (quote : Text) :
    (q.plain quote).Finds g (.ofText t) depth i
      (if q.escape <+: t.drop i ∨ quote <+: t.drop i then .declined
      else .ofItem (fun _ => true) t i) := by
  have marks : (Parser.choice (.word quote) [.word q.escape]).Finds g (.ofText t) depth i _ :=
    Parser.finds_choice (.cons (Parser.finds_word quote) (.cons (Parser.finds_word q.escape) .nil))
  have found : (q.plain quote).Finds g (.ofText t) depth i _ :=
    Parser.finds_second (Parser.finds_absent marks) fun _ _ _ => Parser.finds_item
  unfold Upshot.ofWord at found
  by_cases closing : quote <+: t.drop i
  · simpa [closing] using found
  by_cases escaping : q.escape <+: t.drop i
  · simpa [closing, escaping] using found
  · simpa [closing, escaping] using found

/-- One piece of what stands between the quotes. -/
def pieceUpshot (q : Quoting) (quote t : Text) (i : Nat) : Upshot :=
  if q.escape <+: t.drop i then readingUpshot (q.escapedAt t i)
  else if quote <+: t.drop i then .declined
  else .ofItem (fun _ => true) t i

theorem finds_piece (hq : q.advanced = []) (quote : Text) :
    (Parser.choice q.escaped [q.plain quote]).Finds g (.ofText t) depth i
      (q.pieceUpshot quote t i) := by
  have alternatives : List.Forall₂ (fun p x => Parser.Finds g (.ofText t) depth p i x)
      [q.escaped, q.plain quote] _ :=
    .cons (finds_escaped hq) (.cons (finds_plain quote) .nil)
  have found := Parser.finds_choice alternatives
  simp only [Upshot.first_cons, Upshot.first_nil, Upshot.orElse_declined_right] at found
  unfold pieceUpshot
  by_cases escaping : q.escape <+: t.drop i
  · simp only [escaping, true_or, if_true, Upshot.orElse_declined_right] at found ⊢
    exact found
  · simp only [escaping, false_or, if_false, Upshot.orElse_declined] at found ⊢
    exact found

variable {h : q.escape ≠ []} {quote : Text} {opening : Span} {j : Nat} {v : Value}

/-- A piece is what stands for an escape, or an item that starts neither an escape nor the quote. -/
theorem cases_of_pieceUpshot (hv : q.pieceUpshot quote t i = .matched v j) :
    (∃ piece, q.escape <+: t.drop i ∧ q.escapedAt t i = .ok (piece, j) ∧ v = .text piece) ∨
      ∃ c, ¬q.escape <+: t.drop i ∧ ¬quote <+: t.drop i ∧ t[i]? = some c ∧ v = .text [c] ∧
        j = i + 1 := by
  unfold pieceUpshot at hv
  split at hv
  · rename_i escaping
    cases hj : q.escapedAt t i with
    | ok reading =>
      rw [hj] at hv
      cases hv
      exact .inl ⟨reading.1, escaping, rfl, rfl⟩
    | error e =>
      rw [hj] at hv
      cases hv
  split at hv
  · cases hv
  · rename_i escaping closing
    obtain ⟨c, hc, -, rfl, rfl⟩ := Upshot.ofItem_eq_matched hv
    exact .inr ⟨c, escaping, closing, hc, rfl, rfl⟩

theorem lt_of_pieceUpshot (h : q.escape ≠ []) (hv : q.pieceUpshot quote t i = .matched v j) :
    i < j := by
  rcases cases_of_pieceUpshot hv with ⟨piece, -, hj, -⟩ | ⟨c, -, -, -, -, hj⟩
  · exact lt_of_escapedAt h hj
  · omega

/-- The scan moves on over a piece. -/
theorem exists_of_pieceUpshot (hv : q.pieceUpshot quote t i = .matched v j) :
    ∃ piece, v = .text piece ∧ ∀ done,
      q.scanFrom h quote opening t i done = q.scanFrom h quote opening t j (done ++ piece) := by
  rcases cases_of_pieceUpshot hv with
    ⟨piece, escaping, hj, rfl⟩ | ⟨c, escaping, closing, hc, rfl, rfl⟩
  · exact ⟨piece, rfl, fun done => scanFrom_escaped escaping hj⟩
  · exact ⟨[c], rfl, fun done => scanFrom_plain escaping closing hc⟩

/-- Without a piece, the scan comes to the error of the escape, or to the closing quote or its
absence. -/
theorem scanFrom_of_unmatched (hv : ∀ v k, q.pieceUpshot quote t i ≠ .matched v k) (done : Text) :
    q.scanFrom h quote opening t i done =
      (q.pieceUpshot quote t i).orElse
        (((Upshot.ofWord quote t i).output fun _ => .text done).orElse
          (.failed (missingQuote quote opening i))) := by
  unfold pieceUpshot at hv ⊢
  by_cases escaping : q.escape <+: t.drop i
  · rw [if_pos escaping] at hv ⊢
    cases hj : q.escapedAt t i with
    | ok reading =>
      rw [hj] at hv
      exact absurd rfl (hv _ _)
    | error e => exact scanFrom_broken escaping hj
  rw [if_neg escaping] at hv ⊢
  unfold Upshot.ofWord
  by_cases closing : quote <+: t.drop i
  · rw [if_pos closing, if_pos closing]
    exact scanFrom_closed escaping closing
  rw [if_neg closing] at hv ⊢
  rw [if_neg closing]
  cases hc : t[i]? with
  | none =>
    rw [scanFrom_unclosed escaping closing hc, Upshot.ofItem, hc]
    rfl
  | some c =>
    rw [Upshot.ofItem, hc] at hv
    exact absurd rfl (hv _ _)

/-- The scan moves on over pieces in a row. -/
theorem exists_of_matches (h : q.escape ≠ []) (opening : Span) {vs : List Value}
    (row : Parser.Matches (q.pieceUpshot quote t) i vs j) :
    ∃ pieces : List Text, vs = pieces.map Value.text ∧ ∀ done,
      q.scanFrom h quote opening t i done =
        q.scanFrom h quote opening t j (done ++ pieces.flatten) := by
  induction row with
  | nil i => exact ⟨[], rfl, fun done => by rw [List.flatten_nil, List.append_nil]⟩
  | cons first _ ih =>
    obtain ⟨piece, rfl, moves⟩ := exists_of_pieceUpshot first
    obtain ⟨pieces, rfl, rest⟩ := ih
    refine ⟨piece :: pieces, rfl, fun done => ?_⟩
    rw [moves, rest, List.flatten_cons, List.append_assoc]

theorem scanFrom_ne_declined {done : Text} : q.scanFrom h quote opening t i done ≠ .declined := by
  fun_induction scanFrom with
  | case1 => nofun
  | case2 _ _ _ _ _ _ ih => exact ih
  | case3 => nofun
  | case4 _ _ _ _ _ _ ih => exact ih
  | case5 => nofun

/-- What stands up to the closing quote: the repetition stops where the scan has no further
piece. -/
theorem exists_finds_content (hq : q.advanced = []) (h : q.escape ≠ []) (opening : Span)
    (hi : i ≤ t.length) :
    ∃ done j, q.scanFrom h quote opening t i [] =
        (q.pieceUpshot quote t j).orElse
          (((Upshot.ofWord quote t j).output fun _ => .text done).orElse
            (.failed (missingQuote quote opening j))) ∧
      (∀ v k, q.pieceUpshot quote t j ≠ .matched v k) ∧
      (q.content quote).Finds g (.ofText t) depth i
        ((q.pieceUpshot quote t j).orElse (.matched (.text done) j)) := by
  have size : i ≤ (Items.ofText t).size := by rwa [Items.size_ofText]
  -- each piece moves on, because the escape is not empty
  have moves : (Bounds.atLeast 0).most = none → ∀ n v, q.pieceUpshot quote t n ≠ .matched v n :=
    fun _ n v hv => Nat.lt_irrefl n (lt_of_pieceUpshot h hv)
  have piece (n : Nat) : (Parser.choice q.escaped [q.plain quote]).Finds g (.ofText t) depth n
      (q.pieceUpshot quote t n) := finds_piece hq quote
  obtain ⟨vs, j, row, -, ⟨most, -⟩ | ⟨-, unmatched, repeated⟩⟩ :=
    Parser.exists_finds_times piece moves size
  · cases most
  obtain ⟨pieces, rfl, moves⟩ := exists_of_matches h opening row
  have enough : ¬(pieces.map Value.text).length < (Bounds.atLeast 0).least := Nat.not_lt_zero _
  rw [if_neg enough] at repeated
  refine ⟨pieces.flatten, j, (moves []).trans (scanFrom_of_unmatched unmatched _), unmatched, ?_⟩
  have joined := Value.joined_of_joinedText (Value.joinedText_texts pieces)
  cases hx : q.pieceUpshot quote t j
  case matched v k => exact absurd hx (unmatched v k)
  case declined =>
    rw [hx] at repeated
    exact Parser.finds_map_matched repeated joined
  all_goals
    rw [hx] at repeated
    exact Parser.finds_map_unmatched repeated nofun

/-! ### Quoted texts -/

/-- What the parser of a text between two given quotes finds. -/
def betweenUpshot (q : Quoting) (h : q.escape ≠ []) (t : Text) (i : Nat) (quote : Text) :
    Upshot :=
  if quote <+: t.drop i then
    q.scanFrom h quote ⟨i, i + quote.length, Nat.le_add_right i quote.length⟩ t (i + quote.length) []
  else .declined

/-- The closing quote is read where the content ends. -/
theorem finds_body {p : Parser} (hq : q.advanced = []) (h : q.escape ≠ []) {opening : Span}
    (hi : i ≤ t.length)
    (hp : ∀ j, p.Finds g (.ofText t) depth j
      ((Upshot.ofWord quote t j).orElse (.failed (missingQuote quote opening j)))) :
    (∃ w u j, (Parser.seq (q.content quote) p).Finds g (.ofText t) depth i
          (.matched (.tuple [.text w, u]) j) ∧
        q.scanFrom h quote opening t i [] = .matched (.text w) j) ∨
      ∃ x, (∀ v k, x ≠ .matched v k) ∧
        (Parser.seq (q.content quote) p).Finds g (.ofText t) depth i x ∧
        q.scanFrom h quote opening t i [] = x := by
  obtain ⟨done, j, scan, unmatched, content⟩ := exists_finds_content hq h opening hi
  have found := Parser.finds_seq content fun _ k _ => hp k
  rw [scan]
  cases hx : q.pieceUpshot quote t j
  case matched v k => exact absurd hx (unmatched v k)
  case declined =>
    rw [hx] at found
    unfold Upshot.ofWord at found ⊢
    by_cases closing : quote <+: t.drop j
    · simp only [if_pos closing, Upshot.orElse_declined, Upshot.andThen_matched] at found ⊢
      exact .inl ⟨done, .text quote, j + quote.length, found, rfl⟩
    · simp only [if_neg closing, Upshot.orElse_declined, Upshot.andThen_matched] at found ⊢
      exact .inr ⟨.failed (missingQuote quote opening j), nofun, found, rfl⟩
  all_goals
    rw [hx] at found
    refine .inr ⟨_, ?_, found, rfl⟩
    nofun

/-- Between two quotes the parser finds what the scan says after the opening one. -/
theorem finds_between (hq : q.advanced = []) (h : q.escape ≠ []) (quote : Text) :
    (q.between quote).Finds g (.ofText t) depth i (q.betweenUpshot h t i quote) := by
  refine Parser.finds_of_le_size fun hi => ?_
  rw [Items.size_ofText] at hi
  unfold betweenUpshot
  have opened : (Parser.withSpan (.word quote)).Finds g (.ofText t) depth i _ :=
    Parser.finds_withSpan (Parser.finds_word quote)
  rw [Upshot.ofWord_andThen] at opened
  by_cases stands : quote <+: t.drop i
  · rw [if_pos stands] at opened ⊢
    have within := stands.length_le
    rw [List.length_drop] at within
    have span : (Span.point i).upTo (i + quote.length) =
        ⟨i, i + quote.length, Nat.le_add_right i quote.length⟩ :=
      Span.ext rfl (Span.stop_upTo (Nat.le_add_right i quote.length))
    rw [span] at opened
    generalize (⟨i, i + quote.length, _⟩ : Span) = opening at opened
    have closing (j : Nat) : (Parser.require (.word quote) (report
        (.ofString "Expected closing quote `" ++ quote ++ .ofString "` for the quote opened at " ++
          .ofString opening.brief ++ .ofString "."))).Finds g (.ofText t) depth j
        ((Upshot.ofWord quote t j).orElse (.failed (missingQuote quote opening j))) :=
      Parser.finds_require (Parser.finds_word quote) fun _ => report_point _ j
    have body := finds_body hq h (i := i + quote.length) (by omega) closing
    rcases body with ⟨w, u, j, body, scan⟩ | ⟨x, unmatched, body, scan⟩
    · rw [scan]
      refine Parser.finds_map_matched (Parser.finds_seqBy opened
        (y := fun _ _ => .matched (.tuple [.text w, u]) j) fun v k hv => ?_) rfl
      cases hv
      exact ⟨_, rfl, body⟩
    · rw [scan]
      exact Parser.finds_map_unmatched (Parser.finds_seqBy_unmatched opened rfl body unmatched)
        unmatched
  · rw [if_neg stands] at opened ⊢
    exact Parser.finds_map_declined (Parser.finds_seqBy opened (y := fun _ _ => .declined) nofun)

/-- The parser can be built, and finds what the scan says. -/
theorem exists_finds_scan (hq : q.advanced = []) (h : q.escape ≠ []) (hquotes : q.quotes ≠ []) :
    ∃ p, q.parser = .ok p ∧ ∀ g t depth i, p.Finds g (.ofText t) depth i (q.scan h t i) := by
  obtain ⟨quote, quotes, list⟩ := List.exists_cons_of_ne_nil hquotes
  refine ⟨.choice (q.between quote) (quotes.map q.between), by rw [parser, list]; rfl, ?_⟩
  intro g t depth i
  have alternatives : List.Forall₂ (fun p x => Parser.Finds g (.ofText t) depth p i x)
      (q.quotes.map q.between) (q.quotes.map (q.betweenUpshot h t i)) :=
    Parser.forall₂_finds_map fun quote _ => finds_between hq h quote
  have first : Upshot.first (q.quotes.map (q.betweenUpshot h t i)) = q.scan h t i := by
    unfold scan
    refine (Upshot.first_map (P := fun quote : Text => quote <+: t.drop i)
      (f := fun quote => q.scanFrom h quote
        ⟨i, i + quote.length, Nat.le_add_right i quote.length⟩ t (i + quote.length) [])
      (fun _ _ => scanFrom_ne_declined) q.quotes).trans ?_
    cases q.quotes.find? fun quote => quote <+: t.drop i <;> rfl
  rw [← first]
  rw [list] at alternatives ⊢
  exact Parser.finds_choice alternatives

end Quoting

end Parsers

end Lexeme

/-- With some quotes, an escape that is not empty and no further parsers after it, the parser of
quoted texts can be built, and on a stream of a text that stands anywhere it comes to what the scan
from there says.  A match leaves the stream right after the closing quote; without one it stays as
it was. -/
theorem quoted_texts_follow_scan (quotes : List Text) (escape : Text) (sequences : List (Text × Text))
    (hquotes : quotes ≠ []) (hescape : escape ≠ []) :
    ∃ p, Lexeme.Quoting.parser ⟨quotes, escape, sequences, []⟩ = .ok p ∧
      ∀ (g : Grammar) (t : Text) (depth : Nat) (c : Cursor), c.Placed (.ofText t) →
        (p.runWithin g (.ofText t) depth c).Settles c
          (Lexeme.Quoting.scan ⟨quotes, escape, sequences, []⟩ hescape t c.position) := by
  obtain ⟨p, built, found⟩ :=
    Lexeme.Quoting.exists_finds_scan (q := ⟨quotes, escape, sequences, []⟩) rfl hescape hquotes
  exact ⟨p, built, fun g t depth c hc => (found g t depth c.position).settles hc⟩

/-- In the middle of a text a quote is opened, and a `u` after an escape has only two figures. -/
def Text.shortEscape : Text := .ofChars ['x', '\'', '\\', 'u', '1', '2']

/-- No sequence, not even one that starts with a `u`, stands where the figures are missing. -/
theorem quoted_texts_follow_scan_short_escape :
    [Text.ofChars ['"'], .ofChars ['\'']] ≠ [] ∧ Text.ofChars ['\\'] ≠ [] ∧
      (Cursor.point 1).Placed (.ofText Text.shortEscape) ∧
      ∃ p, Lexeme.Quoting.parser ⟨[.ofChars ['"'], .ofChars ['\'']], .ofChars ['\\'],
          [(.ofChars ['u', '2'], []), (.ofChars ['n'], .ofChars ['\n'])], []⟩ = .ok p ∧
        (p.runWithin .empty (.ofText Text.shortEscape) 0 (.point 1)).ending =
          .answered (.failed (.located 3 1
            (.ofString "Expected 4 hexadecimal characters after unicode escape sequence."))) ∧
        (p.runWithin .empty (.ofText Text.shortEscape) 0 (.point 1)).state = .point 1 := by
  have quotes : [Text.ofChars ['"'], .ofChars ['\'']] ≠ [] := List.cons_ne_nil _ _
  have escape : Text.ofChars ['\\'] ≠ [] := List.cons_ne_nil _ _
  have placed : (Cursor.point 1).Placed (.ofText Text.shortEscape) := Cursor.placed_point (by decide)
  obtain ⟨p, built, follows⟩ := quoted_texts_follow_scan _ _
    [(.ofChars ['u', '2'], []), (.ofChars ['n'], .ofChars ['\n'])] quotes escape
  have settles := follows .empty Text.shortEscape 0 (.point 1) placed
  have scan : Lexeme.Quoting.scan ⟨[.ofChars ['"'], .ofChars ['\'']], .ofChars ['\\'],
      [(.ofChars ['u', '2'], []), (.ofChars ['n'], .ofChars ['\n'])], []⟩ escape Text.shortEscape 1 =
        .failed (Lexeme.shortCodePoint 3) :=
    Lexeme.Quoting.scanFrom_broken (by decide) rfl
  rw [Cursor.position_point, scan] at settles
  exact ⟨quotes, escape, placed, p, built, settles.1, settles.2⟩

end Backtrack
