import Backtrack.Proofs.LeftRecursion
import Backtrack.Proofs.Scanning

/-!
# A recursive rule and its language

The rule is a letter and then, once more, the rule or a closing letter.  It matches where the letter
stands any number of times, but at least once, with the closing letter after the last, and it gives
pairs that are nested as deep.  Everywhere else it declines, however often the letter stands there.
Calls of its handle go on only as long as the letter does, so a depth of one call for each item that
is left is enough.

* `Text.nested`, `Value.nested`, `Text.nesting?`: the language, the outputs, and the depth of the
  word in front of a text.
* `Parser.nestedPairs`: the definition of the rule, made of the rule itself.
* `Parser.finds_nestedPairs`: what the rule finds, by induction on the depth.
* `nested_pairs_are_parsed`: the law.
-/

namespace Backtrack

variable {letter close : CodePoint}

/-! ### The language -/

/-- The letter `n` times, and the closing letter. -/
def Text.nested (letter close : CodePoint) (n : Nat) : Text := List.replicate n letter ++ [close]

/-- Pairs nested `n` deep on their right, around the closing letter. -/
def Value.nested (letter close : CodePoint) : Nat → Value
  | 0 => .text [close]
  | n + 1 => .tuple [.text [letter], nested letter close n]

namespace Text

/-- How often the letter stands in front of the text, if the closing letter follows. -/
def nesting? (letter close : CodePoint) : Text → Option Nat
  | [] => none
  | a :: rest =>
    if a = close then some 0
    else if a = letter then (nesting? letter close rest).map (· + 1) else none

theorem nested_succ (n : Nat) :
    nested letter close (n + 1) = letter :: nested letter close n := rfl

theorem nesting?_letter (distinct : letter ≠ close) (rest : Text) :
    nesting? letter close (letter :: rest) = (nesting? letter close rest).map (· + 1) := by
  rw [nesting?, if_neg distinct, if_pos rfl]

theorem nesting?_eq_some_iff (distinct : letter ≠ close) {t : Text} {n : Nat} :
    nesting? letter close t = some n ↔ nested letter close n <+: t := by
  induction t generalizing n with
  | nil => simp [nesting?, nested]
  | cons a rest ih =>
    cases n with
    | zero =>
      have first : nested letter close 0 <+: a :: rest ↔ close = a := by simp [nested]
      rw [first, nesting?]
      by_cases hclose : a = close
      · simp [hclose]
      · simp [hclose, Ne.symm hclose]
    | succ n =>
      rw [nested_succ, List.cons_prefix_cons, nesting?, ← ih]
      by_cases hletter : a = letter
      · simp [hletter, distinct]
      · by_cases hclose : a = close
        · simp [hclose, distinct]
        · simp [hclose, hletter, Ne.symm hletter]

end Text

/-! ### The rule -/

/-- A word of the language as it stands in a text, with at least one letter before the closing
one. -/
def Upshot.ofNested (letter close : CodePoint) (t : Text) (i : Nat) : Upshot :=
  match Text.nesting? letter close (t.drop i) with
  | some (n + 1) => .matched (.nested letter close (n + 1)) (i + (n + 2))
  | _ => .declined

namespace Upshot

variable {t : Text} {i n : Nat}

theorem ofNested_of_prefix (distinct : letter ≠ close) (hn : 1 ≤ n)
    (h : Text.nested letter close n <+: t.drop i) :
    ofNested letter close t i = .matched (.nested letter close n) (i + (n + 1)) := by
  obtain ⟨m, rfl⟩ := Nat.exists_eq_add_of_le' hn
  rw [ofNested, (Text.nesting?_eq_some_iff distinct).2 h]

theorem ofNested_of_not_prefix (distinct : letter ≠ close)
    (h : ∀ n ≥ 1, ¬Text.nested letter close n <+: t.drop i) :
    ofNested letter close t i = .declined := by
  unfold ofNested
  split
  · rename_i n hn
    exact absurd ((Text.nesting?_eq_some_iff distinct).1 hn) (h _ (Nat.le_add_left 1 n))
  · rfl

/-- The rule once more or the closing letter: a word with any number of letters. -/
theorem ofNested_orElse (distinct : letter ≠ close) (t : Text) (i : Nat) :
    (ofNested letter close t i).orElse (ofWord [close] t i) =
      match Text.nesting? letter close (t.drop i) with
      | some n => .matched (.nested letter close n) (i + (n + 1))
      | none => .declined := by
  have closed : Text.nesting? letter close (t.drop i) = some 0 ↔ [close] <+: t.drop i :=
    Text.nesting?_eq_some_iff distinct
  unfold ofNested ofWord
  cases hn : Text.nesting? letter close (t.drop i) with
  | none =>
    rw [if_neg (by rw [← closed, hn]; nofun)]
    rfl
  | some n =>
    cases n with
    | zero =>
      rw [if_pos (closed.1 hn)]
      rfl
    | succ n => rfl

/-- The rule is the letter before the rule once more or the closing letter. -/
theorem ofNested_eq (distinct : letter ≠ close) (t : Text) (i : Nat) :
    ofNested letter close t i =
      (ofWord [letter] t i).andThen fun v j =>
        ((ofNested letter close t j).orElse (ofWord [close] t j)).output fun w =>
          .tuple [v, w] := by
  simp only [ofWord_andThen, ofNested_orElse distinct]
  by_cases stands : [letter] <+: t.drop i
  · obtain ⟨rest, hrest⟩ := stands
    have left : t.drop (i + [letter].length) = rest := by
      rw [← List.drop_drop, ← hrest, List.drop_left]
    rw [if_pos ⟨rest, hrest⟩, left, ofNested, ← hrest, List.singleton_append,
      Text.nesting?_letter distinct]
    cases Text.nesting? letter close rest with
    | none => rfl
    | some n =>
      have stop : i + [letter].length + (n + 1) = i + (n + 2) := by
        rw [List.length_singleton]
        omega
      simp only [Option.map_some, output_matched, stop]
      rfl
  · rw [if_neg stands]
    refine ofNested_of_not_prefix distinct fun n hn word => stands ?_
    obtain ⟨m, rfl⟩ := Nat.exists_eq_add_of_le' hn
    exact (List.prefix_append [letter] _).trans word

end Upshot

namespace Grammar

/-- A fresh handle has no definition, so it can be given one. -/
theorem define_fresh (g : Grammar) (p : Parser) :
    ∃ g', g.fresh.2.define g.fresh.1 (.parser p) = .ok (g', .defined g.fresh.1 p.kind) ∧
      g'.definition? g.fresh.1 = some p := by
  refine ⟨⟨(g.definitions.push none).setIfInBounds g.definitions.size (some p)⟩, ?_, ?_⟩
  · have undefined : g.fresh.2.isDefined g.fresh.1 = false := by
      simp [fresh, isDefined, definition?]
    rw [define, undefined]
    rfl
  · simp [fresh, definition?]

/-- A grammar with a definition grants more depth than there are items. -/
theorem size_lt_depth {g : Grammar} {items : Items} {n : Nat} {p : Parser}
    (h : g.definition? n = some p) : items.size < g.depth items := by
  have handles : 0 < g.definitions.size := Nat.zero_lt_of_lt (lt_size_of_definition? h)
  have granted := Nat.le_mul_of_pos_left (items.size + 1) handles
  unfold depth
  omega

end Grammar

namespace Parser

/-- The definition of a rule, made of the rule itself: a text, and then the rule once more or
another text. -/
def nestedPairs (letter close : Text) (rule : Parser) : Except Fault Parser := do
  let first ← literalOf (.value (.text letter))
  let last ← literalOf (.value (.text close))
  return seq first (← choiceFrom [.parser rule, .parser last])

theorem nestedPairs_eq (letter close : Text) (rule : Parser) :
    nestedPairs letter close rule =
      .ok (seq (word letter) (choice rule [word close])) := rfl

/-- With a call to go for each item that is left, and one more, the rule finds the words of its
language. -/
theorem finds_nestedPairs (distinct : letter ≠ close) {g : Grammar} {n : Nat}
    (defined : g.definition? n = some (seq (word [letter]) (choice (handle n) [word [close]])))
    {t : Text} {depth i : Nat} (hdepth : t.length < i + depth) :
    (handle n).Finds g (.ofText t) depth i (.ofNested letter close t i) := by
  induction depth generalizing i with
  | zero =>
    -- no stream stands past the end
    refine finds_of_le_size fun hi => ?_
    rw [Items.size_ofText] at hi
    omega
  | succ depth ih =>
    rw [Upshot.ofNested_eq distinct]
    refine finds_handle defined (finds_seq (finds_word [letter]) fun v j hj => ?_)
    obtain ⟨-, rfl⟩ := Upshot.ofWord_eq_matched hj
    have again := ih (i := i + [letter].length) (by rw [List.length_singleton]; omega)
    have found := finds_choice (.cons again (.cons (finds_word [close]) .nil))
    rwa [Upshot.first_cons, Upshot.first_cons, Upshot.first_nil,
      Upshot.orElse_declined_right] at found

end Parser

/-- A rule that is defined, as soon as its handle is made, as the letter ‘a’ and then the rule once
more or the letter ‘c’, on a stream over a text.  It matches exactly where ‘a’ stands any number of
times, at least once, with a ‘c’ after the last.  Then it reads them all, and its output is the
pairs nested as deep, with ‘c’ in the innermost.  Everywhere else it declines and leaves the stream
as it was. -/
theorem nested_pairs_are_parsed (g : Grammar) :
    let a := CodePoint.ofChar 'a'
    let c := CodePoint.ofChar 'c'
    let rule := Parser.handle g.fresh.1
    ∃ definition g' entry, Parser.nestedPairs [a] [c] rule = .ok definition ∧
      g.fresh.2.define g.fresh.1 (.parser definition) = .ok (g', entry) ∧
      ∀ (t : Text) (s : Cursor), s.Placed (.ofText t) →
        let r := rule.run g' (.ofText t) s
        ((∃ v, r.ending = .answered (.matched v)) ↔
          ∃ n ≥ 1, Text.nested a c n <+: t.drop s.position) ∧
        (∀ n ≥ 1, Text.nested a c n <+: t.drop s.position →
          r.Settles s (.matched (.nested a c n) (s.position + (n + 1)))) ∧
        ((∀ n ≥ 1, ¬Text.nested a c n <+: t.drop s.position) → r.Settles s .declined) := by
  intro a c rule
  have distinct : a ≠ c := by decide
  obtain ⟨g', built, defined⟩ := g.define_fresh (.seq (.word [a]) (.choice rule [.word [c]]))
  refine ⟨_, g', _, Parser.nestedPairs_eq [a] [c] rule, built, fun t s hs => ?_⟩
  intro r
  have room : t.length < s.position + g'.depth (.ofText t) := by
    have granted : (Items.ofText t).size < g'.depth (.ofText t) := Grammar.size_lt_depth defined
    rw [Items.size_ofText] at granted
    exact Nat.lt_add_left s.position granted
  have settles : r.Settles s (.ofNested a c t s.position) :=
    (Parser.finds_nestedPairs distinct defined room).settles hs
  have matched : ∀ n ≥ 1, Text.nested a c n <+: t.drop s.position →
      r.Settles s (.matched (.nested a c n) (s.position + (n + 1))) := fun n hn word => by
    rwa [Upshot.ofNested_of_prefix distinct hn word] at settles
  have declined : (∀ n ≥ 1, ¬Text.nested a c n <+: t.drop s.position) →
      r.Settles s .declined := fun other => by
    rwa [Upshot.ofNested_of_not_prefix distinct other] at settles
  refine ⟨⟨fun ⟨v, hv⟩ => ?_, fun ⟨n, hn, word⟩ => ⟨_, (matched n hn word).1⟩⟩, matched, declined⟩
  by_contra unmatched
  cases hv.symm.trans (declined fun n hn word => unmatched ⟨n, hn, word⟩).1

/-- Behind another character two letters with a ‘c’ are read as pairs nested twice, and three
letters without one are not read. -/
theorem nested_pairs_are_parsed_twice_nested :
    let a := CodePoint.ofChar 'a'
    let c := CodePoint.ofChar 'c'
    let rule := Parser.handle 0
    let t := Text.ofString "xaacb"
    let s := Cursor.start.advance
    ∃ definition g' entry, Parser.nestedPairs [a] [c] rule = .ok definition ∧
      Grammar.empty.fresh.2.define 0 (.parser definition) = .ok (g', entry) ∧
      s.Placed (.ofText t) ∧
      (rule.run g' (.ofText t) s).Settles s
        (.matched (.tuple [.text [a], .tuple [.text [a], .text [c]]]) 4) ∧
      (rule.run g' (.ofText [a, a, a]) .start).Settles .start .declined := by
  intro a c rule t s
  obtain ⟨definition, g', entry, made, defined, runs⟩ := nested_pairs_are_parsed .empty
  have placed : s.Placed (.ofText t) := ⟨rfl, by decide⟩
  have distinct : a ≠ c := by decide
  have word : Text.nested a c 2 <+: t.drop s.position := by decide
  have other : ∀ n ≥ 1, ¬Text.nested a c n <+: [a, a, a] := fun n _ h => by
    cases (Text.nesting?_eq_some_iff distinct).2 h
  exact ⟨definition, g', entry, made, defined, placed,
    (runs t s placed).2.1 2 (by decide) word,
    (runs [a, a, a] .start (Cursor.placed_start _)).2.2 other⟩

end Backtrack
