import Backtrack.Proofs.QuotedScan

/-!
# Every encoding of a text is decoded

Between quotes a text can be written in many ways: each of its characters stands for itself, or
after a backslash, or as a letter after a backslash, or by its number in hexadecimal figures of
either case.  Whatever way is taken for each character, and whatever follows the closing quote, the
parser of quoted texts with the standard options reads the text back and stops right after the
closing quote.

* `Lexeme.EncodesChar`, `Lexeme.Encodes`: the ways of writing characters and texts.
* `Lexeme.Quoting.scanFrom_encodes`: the scan reads the text that an encoding writes.
* `encodings_are_decoded`: the law.
-/

namespace Backtrack

open CodePoint (ofChar)
open Numeral (isFigure Spells)

namespace Lexeme

/-! ### Encodings -/

/-- The letters after a backslash that stand for control characters, and these. -/
def controlEscapes : List (CodePoint × CodePoint) :=
  [(ofChar 'b', ofChar '\x08'), (ofChar 'f', ofChar '\x0c'), (ofChar 'n', ofChar '\n'),
    (ofChar 'r', ofChar '\r'), (ofChar 't', ofChar '\t')]

/-- The text writes the character between two of the quotes. -/
inductive EncodesChar (quote : CodePoint) : CodePoint → Text → Prop
  | plain {c : CodePoint} (unquoted : c ≠ quote) (unescaped : c ≠ ofChar '\\') :
    EncodesChar quote c [c]
  | escaped {c : CodePoint} (free : c ∉ Text.ofChars ['b', 'f', 'n', 'r', 't', 'u']) :
    EncodesChar quote c [ofChar '\\', c]
  | control {letter c : CodePoint} (listed : (letter, c) ∈ controlEscapes) :
    EncodesChar quote c [ofChar '\\', letter]
  | numbered {c : CodePoint} {four : Text} (small : c.val < 0x10000)
    (spelt : Spells four (Nat.digitsAppend 16 4 c.val).reverse) :
    EncodesChar quote c (ofChar '\\' :: ofChar 'u' :: four)

/-- The text writes another one character by character. -/
inductive Encodes (quote : CodePoint) : Text → Text → Prop
  | nil : Encodes quote [] []
  | cons {c : CodePoint} {s u w : Text} (first : EncodesChar quote c u) (rest : Encodes quote s w) :
    Encodes quote (c :: s) (u ++ w)

/-! ### Reading them -/

section FourFigures

variable {c : CodePoint} {four rest : Text} (small : c.val < 0x10000)
  (spelt : Spells four (Nat.digitsAppend 16 4 c.val).reverse)

include small spelt

theorem length_fourFigures : four.length = 4 := by
  rw [spelt.length_eq, List.length_reverse, Nat.length_digitsAppend (by decide) 4 small]

theorem fourFigures?_append : fourFigures? (four ++ rest) = some c := by
  have length := length_fourFigures small spelt
  have front : (four ++ rest).take 4 = four := by rw [← length, List.take_left]
  have figures : four.all (isFigure 16) = true :=
    List.all_eq_true.2 fun a ha => spelt.isFigure (fun d hd =>
      Nat.lt_of_mem_digitsAppend (by decide) 4 d (List.mem_reverse.1 hd)) ha
  have number : Numeral.number 16 four = c.val := by
    rw [spelt.number_eq, List.reverse_reverse, Nat.digitsAppend, Nat.ofDigits_append_replicate_zero,
      Nat.ofDigits_digits]
  have same : (Fin.ofNat 0x110000 c.val : CodePoint) = c := Fin.ext (Nat.mod_eq_of_lt c.isLt)
  unfold fourFigures?
  dsimp only
  rw [front, number, same, if_pos ⟨length, figures⟩]

end FourFigures

namespace Quoting

theorem escape_standard_ne : standard.escape ≠ [] := List.cons_ne_nil _ _

theorem find?_standardSequences (a : CodePoint) (rest : Text) :
    (standard.sequences.find? fun s => s.1 <+: a :: rest) =
      (controlEscapes.find? fun e => e.1 = a).map fun e => ([e.1], [e.2]) := by
  have listed : standard.sequences = controlEscapes.map fun e => ([e.1], [e.2]) := rfl
  have same (e : CodePoint × CodePoint) : decide ([e.1] <+: a :: rest) = decide (e.1 = a) := by
    simp only [List.singleton_prefix_cons_iff]
  rw [listed, List.find?_map, ← funext same]
  rfl

variable {quote c : CodePoint} {t u s w rest done : Text} {opening : Span} {i : Nat}

/-- A character of the standard sequences, a `u` or any other one stands after a backslash. -/
theorem escapedAt_standard {a : CodePoint} (h : t.drop i = ofChar '\\' :: a :: rest) :
    standard.escapedAt t i =
      match controlEscapes.find? fun e => e.1 = a with
      | some e => .ok ([e.2], i + 2)
      | none =>
        if a = ofChar 'u' then
          match fourFigures? rest with
          | some p => .ok ([p], i + 6)
          | none => .error (shortCodePoint (i + 1))
        else .ok ([a], i + 2) := by
  have after : t.drop (i + 1) = a :: rest := by rw [← List.drop_drop, h]; rfl
  have item : t[i + 1]? = some a := by rw [← List.head?_drop, after]; rfl
  have figures : t.drop (i + 1 + 1) = rest := by rw [← List.drop_drop, after]; rfl
  have length : standard.escape.length = 1 := rfl
  unfold escapedAt
  dsimp only
  rw [length, after, find?_standardSequences, item, figures]
  cases controlEscapes.find? fun e => e.1 = a with
  | some e => rfl
  | none => rfl

theorem escapedAt_free (free : c ∉ Text.ofChars ['b', 'f', 'n', 'r', 't', 'u'])
    (h : t.drop i = ofChar '\\' :: c :: rest) : standard.escapedAt t i = .ok ([c], i + 2) := by
  have letters : controlEscapes.all fun e =>
      (Text.ofChars ['b', 'f', 'n', 'r', 't', 'u']).contains e.1 := by decide
  have unlisted : (controlEscapes.find? fun e => e.1 = c) = none := by
    rw [List.find?_eq_none]
    intro e he same
    have letter := List.contains_iff_mem.1 (List.all_eq_true.1 letters e he)
    rw [of_decide_eq_true same] at letter
    exact free letter
  have other : c ≠ ofChar 'u' := fun same => free (by simp [same])
  rw [escapedAt_standard h, unlisted]
  exact if_neg other

theorem escapedAt_control {letter : CodePoint} (listed : (letter, c) ∈ controlEscapes)
    (h : t.drop i = ofChar '\\' :: letter :: rest) : standard.escapedAt t i = .ok ([c], i + 2) := by
  simp only [controlEscapes, List.mem_cons, List.not_mem_nil, or_false, Prod.mk.injEq] at listed
  rcases listed with ⟨rfl, rfl⟩ | ⟨rfl, rfl⟩ | ⟨rfl, rfl⟩ | ⟨rfl, rfl⟩ | ⟨rfl, rfl⟩ <;>
    exact escapedAt_standard h

theorem escapedAt_numbered (number : fourFigures? rest = some c)
    (h : t.drop i = ofChar '\\' :: ofChar 'u' :: rest) :
    standard.escapedAt t i = .ok ([c], i + 6) := by
  rw [escapedAt_standard h, number]
  rfl

/-- Read from where it stands, an encoding gives its character. -/
theorem scanFrom_encodesChar (first : EncodesChar quote c u) (h : t.drop i = u ++ rest) :
    standard.scanFrom escape_standard_ne [quote] opening t i done =
      standard.scanFrom escape_standard_ne [quote] opening t (i + u.length) (done ++ [c]) := by
  have escapes {v : Text} (h : t.drop i = ofChar '\\' :: v) : standard.escape <+: t.drop i := by
    rw [h]
    exact ⟨v, rfl⟩
  cases first with
  | plain unquoted unescaped =>
    refine scanFrom_plain ?_ ?_ ?_
    · rw [h]
      exact fun start => unescaped (List.singleton_prefix_cons_iff.1 start).symm
    · rw [h]
      exact fun start => unquoted (List.singleton_prefix_cons_iff.1 start).symm
    · rw [← List.head?_drop, h]
      rfl
  | escaped free => exact scanFrom_escaped (escapes h) (escapedAt_free free h)
  | control listed => exact scanFrom_escaped (escapes h) (escapedAt_control listed h)
  | numbered small spelt =>
    rw [List.length_cons, List.length_cons, length_fourFigures small spelt]
    exact scanFrom_escaped (escapes h) (escapedAt_numbered (fourFigures?_append small spelt) h)

/-- Read from where it stands, an encoding of a text gives the text. -/
theorem scanFrom_encodes (whole : Encodes quote s w) (h : t.drop i = w ++ rest) :
    standard.scanFrom escape_standard_ne [quote] opening t i done =
      standard.scanFrom escape_standard_ne [quote] opening t (i + w.length) (done ++ s) := by
  induction whole generalizing i done with
  | nil => rw [List.length_nil, Nat.add_zero, List.append_nil]
  | @cons c s u w first _ ih =>
    rw [List.append_assoc] at h
    have after : t.drop (i + u.length) = w ++ rest := by rw [← List.drop_drop, h, List.drop_left]
    rw [scanFrom_encodesChar first h, ih after, List.length_append, Nat.add_assoc,
      List.append_assoc]
    rfl

/-- The scan reads a quoted encoding, and stops right after the closing quote. -/
theorem scan_encodes (hquote : quote ∈ Text.ofChars ['"', '\'']) (whole : Encodes quote s w)
    (h : t.drop i = quote :: w ++ [quote] ++ rest) :
    standard.scan escape_standard_ne t i =
      .matched (.text s) (i + (quote :: w ++ [quote]).length) := by
  have listed : quote = ofChar '"' ∨ quote = ofChar '\'' := by simpa using hquote
  have opened : (standard.quotes.find? fun quote => quote <+: t.drop i) = some [quote] := by
    rw [h]
    rcases listed with rfl | rfl <;> rfl
  have unescaped : quote ≠ ofChar '\\' := by rcases listed with rfl | rfl <;> decide
  have content : t.drop (i + 1) = w ++ (quote :: rest) := by
    rw [← List.drop_drop, h]
    simp
  have closing : t.drop (i + 1 + w.length) = quote :: rest := by
    rw [← List.drop_drop, content, List.drop_left]
  unfold scan
  rw [opened]
  dsimp only
  refine (scanFrom_encodes whole content).trans ?_
  rw [scanFrom_closed]
  · simp [Nat.add_assoc, Nat.add_comm 1]
  · rw [closing]
    exact fun start => unescaped (List.singleton_prefix_cons_iff.1 start).symm
  · rw [closing]
    exact List.singleton_prefix_cons_iff.2 rfl

end Quoting

end Lexeme

/-- The parser of quoted texts with the standard options reads a text from every encoding of it
between either quote, and stops right after the closing quote. -/
theorem encodings_are_decoded {quote : CodePoint} (hquote : quote ∈ Text.ofChars ['"', '\''])
    {s w : Text} (whole : Lexeme.Encodes quote s w) (rest : Text) :
    ∃ p, Lexeme.Quoting.standard.parser = .ok p ∧
      p.Reads (quote :: w ++ [quote]) (.text s) rest := by
  have quotes : Lexeme.Quoting.standard.quotes ≠ [] := List.cons_ne_nil _ _
  obtain ⟨p, built, found⟩ := Lexeme.Quoting.exists_finds_scan (q := Lexeme.Quoting.standard) rfl
    Lexeme.Quoting.escape_standard_ne quotes
  exact ⟨p, built, Parser.comesTo_of_finds found fun t i h =>
    Lexeme.Quoting.scan_encodes hquote whole h⟩

/-- The quote after a backslash, a character by its number with figures of both cases, and the other
quote as it is; another quote follows. -/
theorem encodings_are_decoded_three_ways :
    ofChar '"' ∈ Text.ofChars ['"', '\''] ∧
      Lexeme.Encodes (ofChar '"') (.ofChars ['"', 'ï', '\''])
        (.ofChars ['\\', '"', '\\', 'u', '0', '0', 'e', 'F', '\'']) ∧
      ∃ p, Lexeme.Quoting.standard.parser = .ok p ∧
        p.Reads (.ofChars ['"', '\\', '"', '\\', 'u', '0', '0', 'e', 'F', '\'', '"'])
          (.text (.ofChars ['"', 'ï', '\''])) (.ofChars ['"']) := by
  have hquote : ofChar '"' ∈ Text.ofChars ['"', '\''] := by decide
  have spelt : Spells (.ofChars ['0', '0', 'e', 'F']) (Nat.digitsAppend 16 4 0xef).reverse := by
    simp [Nat.digitsAppend]
    rfl
  have numbered : Lexeme.EncodesChar (ofChar '"') (ofChar 'ï')
      (.ofChars ['\\', 'u', '0', '0', 'e', 'F']) := .numbered (by decide) spelt
  have plain : Lexeme.EncodesChar (ofChar '"') (ofChar '\'') (.ofChars ['\'']) :=
    .plain (by decide) (by decide)
  have whole : Lexeme.Encodes (ofChar '"') (.ofChars ['"', 'ï', '\''])
      (.ofChars ['\\', '"', '\\', 'u', '0', '0', 'e', 'F', '\'']) :=
    .cons (.escaped (by decide)) (.cons numbered (.cons plain .nil))
  obtain ⟨p, built, reads⟩ := encodings_are_decoded hquote whole (.ofChars ['"'])
  exact ⟨hquote, whole, p, built, reads⟩

end Backtrack
