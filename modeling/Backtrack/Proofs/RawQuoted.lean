import Mathlib.Order.Bounds.Basic
import Backtrack.Lexeme.Quoted
import Backtrack.Proofs.Alternation
import Backtrack.Proofs.Scanning

/-!
# Raw quoted texts end at the leftmost quote

A raw text has no escapes, so it ends where its quote stands for the first time after the opening
one.  The content is a repetition of single items where the quote does not stand, and the quote is
read once more after it.  So the repetition stops exactly at the leftmost quote, however often a
part of the quote stands in the content, or else at the end of the input.

* `Lexeme.exists_finds_rawContent`: where the content stops.
* `Lexeme.finds_rawBetween_of_leftmost`, `Lexeme.finds_rawBetween_of_never`: raw texts with a
  closing quote and without.
* `Parser.Finds.decisive`: an upshot after which no alternative is tried.
* `raw_texts_end_at_leftmost_quote`: the law.
-/

namespace Backtrack

/-- Matches in a row that read one item each, where a condition holds, read the text in between. -/
theorem Parser.Matches.exists_between {f : Nat → Upshot} {P : Nat → Prop} {t : Text} {i j : Nat}
    {vs : List Value} (row : Parser.Matches f i vs j)
    (single : ∀ n v k, f n = .matched v k → ∃ a, t[n]? = some a ∧ P n ∧ v = .char a ∧ k = n + 1) :
    i ≤ j ∧ vs = ((t.take j).drop i).map Value.char ∧ ∀ n, i ≤ n → n < j → P n := by
  induction row with
  | nil i =>
    refine ⟨Nat.le_refl i, ?_, fun n hi hj => by omega⟩
    rw [List.drop_eq_nil_of_le (List.length_take_le i t), List.map_nil]
  | @cons i _ j v vs first _ ih =>
    obtain ⟨a, ha, holds, rfl, rfl⟩ := single _ _ _ first
    obtain ⟨le, rfl, rest⟩ := ih
    have here : (t.take j)[i]? = some a := by rwa [List.getElem?_take_of_lt le]
    refine ⟨by omega, by rw [drop_eq_cons here, List.map_cons], fun n hi hj => ?_⟩
    rcases Nat.eq_or_lt_of_le hi with rfl | later
    · exact holds
    · exact rest n later hj

namespace Lexeme

/-! ### The content -/

section Parsers

variable {g : Grammar} {mark quote t : Text} {depth i j : Nat}

theorem finds_rawItem (quote : Text) :
    (Parser.map (.seq (.absent (.word quote)) .item) (Value.part 1)).Finds g (.ofText t) depth i
      (if quote <+: t.drop i then .declined else .ofItem (fun _ => true) t i) := by
  have found : (Parser.map (.seq (.absent (.word quote)) .item) (Value.part 1)).Finds g (.ofText t)
      depth i _ :=
    Parser.finds_second (Parser.finds_absent (Parser.finds_word quote)) fun _ _ _ =>
      Parser.finds_item
  unfold Upshot.ofWord at found
  by_cases closing : quote <+: t.drop i
  · simpa [closing] using found
  · simpa [closing] using found

/-- The content stops at the leftmost quote, or at the end of the text if there is none. -/
theorem exists_finds_rawContent (g : Grammar) (depth : Nat) (quote : Text) (hi : i ≤ t.length) :
    ∃ j, (rawContent quote).Finds g (.ofText t) depth i (.matched (.text ((t.take j).drop i)) j) ∧
      (IsLeast {j | i ≤ j ∧ quote <+: t.drop j} j ∨
        j = t.length ∧ ∀ n, i ≤ n → ¬quote <+: t.drop n) := by
  have item (n : Nat) : (Parser.map (.seq (.absent (.word quote)) .item) (Value.part 1)).Finds g
      (.ofText t) depth n _ := finds_rawItem quote
  have single : ∀ n v k,
      (if quote <+: t.drop n then Upshot.declined else .ofItem (fun _ => true) t n) =
        .matched v k →
      ∃ a, t[n]? = some a ∧ (¬quote <+: t.drop n) ∧ v = .char a ∧ k = n + 1 := by
    intro n v k h
    split at h
    · cases h
    · rename_i closing
      obtain ⟨a, ha, -, hv, hk⟩ := Upshot.ofItem_eq_matched h
      exact ⟨a, ha, closing, hv, hk⟩
  have moves : (Bounds.atLeast 0).most = none → ∀ n v,
      (if quote <+: t.drop n then Upshot.declined else .ofItem (fun _ => true) t n) ≠
        .matched v n := fun _ n v h => by
    obtain ⟨-, -, -, -, stop⟩ := single n v n h
    omega
  have size : i ≤ (Items.ofText t).size := by rwa [Items.size_ofText]
  obtain ⟨vs, j, row, hj, ⟨most, -⟩ | ⟨-, unmatched, repeated⟩⟩ :=
    Parser.exists_finds_times item moves size
  · cases most
  obtain ⟨le, rfl, before⟩ := row.exists_between single
  rw [Items.size_ofText] at hj
  have declined : (if quote <+: t.drop j then Upshot.declined
      else .ofItem (fun _ => true) t j) = .declined := by
    split
    · rfl
    · rename_i closing
      simp only [if_neg closing] at unmatched
      exact Upshot.ofItem_eq_declined unmatched
  have enough : ¬(((t.take j).drop i).map Value.char).length < (Bounds.atLeast 0).least :=
    Nat.not_lt_zero _
  rw [declined, Upshot.orElse_declined, if_neg enough] at repeated
  refine ⟨j, Parser.finds_map_matched repeated
    (Value.joined_of_joinedText (Value.joinedText_chars _)), ?_⟩
  by_cases closing : quote <+: t.drop j
  · refine .inl ⟨⟨le, closing⟩, fun n hn => ?_⟩
    exact Nat.le_of_not_lt fun lt => before n hn.1 lt hn.2
  -- where neither the quote nor the end is, one more item could be read
  have atEnd : j = t.length := by
    by_contra notEnd
    have within : j < t.length := Nat.lt_of_le_of_ne hj notEnd
    rw [if_neg closing, Upshot.ofItem, List.getElem?_eq_getElem within] at declined
    cases declined
  refine .inr ⟨atEnd, fun n hn stands => ?_⟩
  by_cases early : n < j
  · exact before n hn early stands
  · rw [List.drop_eq_nil_of_le (by omega), List.prefix_nil] at stands
    exact closing (stands ▸ List.nil_prefix)

/-! ### Between the quotes -/

/-- The error of a missing closing quote at `i`. -/
def missingRawQuote (quote : Text) (i : Nat) : Value :=
  .located i 0 (.ofString "Expected closing quote `" ++ quote ++ .ofString "`.")

/-- Without the opening quote there is no raw text. -/
theorem finds_rawBetween_of_absent (absent : ¬mark ++ quote <+: t.drop i) :
    (rawBetween mark quote).Finds g (.ofText t) depth i .declined := by
  have opening : (Parser.word (mark ++ quote)).Finds g (.ofText t) depth i _ :=
    Parser.finds_word (mark ++ quote)
  rw [Upshot.ofWord, if_neg absent] at opening
  exact Parser.finds_map_declined (Parser.finds_seq_declined (Parser.finds_seq_declined opening))

/-- The closing quote is read where the content stops. -/
theorem finds_rawBetween_of_content {content : Value} (opened : mark ++ quote <+: t.drop i)
    (read : (rawContent quote).Finds g (.ofText t) depth (i + (mark ++ quote).length)
      (.matched content j)) :
    (rawBetween mark quote).Finds g (.ofText t) depth i
      (if quote <+: t.drop j then .matched content (j + quote.length)
      else .failed (missingRawQuote quote j)) := by
  have opening : (Parser.word (mark ++ quote)).Finds g (.ofText t) depth i _ :=
    Parser.finds_word (mark ++ quote)
  rw [Upshot.ofWord, if_pos opened] at opening
  have word : (Parser.word quote).Finds g (.ofText t) depth j _ := Parser.finds_word quote
  have closing := Parser.finds_require word fun _ =>
    report_point (.ofString "Expected closing quote `" ++ quote ++ .ofString "`.") j
  have whole := Parser.finds_seq_matched (Parser.finds_seq_matched opening read) closing
  unfold Upshot.ofWord at whole
  by_cases stands : quote <+: t.drop j
  · rw [if_pos stands] at whole ⊢
    exact Parser.finds_map_matched whole rfl
  · rw [if_neg stands] at whole ⊢
    exact Parser.finds_map_unmatched whole fun _ _ h => by cases h

section Opened

variable (opened : mark ++ quote <+: t.drop i) (hi : i ≤ t.length)

include opened hi

theorem length_opening_le : i + (mark ++ quote).length ≤ t.length := by
  have room := opened.length_le
  rw [List.length_drop] at room
  omega

/-- The raw text is what stands before the leftmost quote. -/
theorem finds_rawBetween_of_leftmost
    (leftmost : IsLeast {j | i + (mark ++ quote).length ≤ j ∧ quote <+: t.drop j} j) :
    (rawBetween mark quote).Finds g (.ofText t) depth i
      (.matched (.text ((t.take j).drop (i + (mark ++ quote).length))) (j + quote.length)) := by
  obtain ⟨k, read, first | ⟨-, never⟩⟩ := exists_finds_rawContent g depth quote
    (length_opening_le opened hi)
  · obtain rfl := first.unique leftmost
    have found := finds_rawBetween_of_content opened read
    rwa [if_pos leftmost.1.2] at found
  · exact absurd leftmost.1.2 (never j leftmost.1.1)

/-- Without a quote after the opening one, it is missing at the end of the text. -/
theorem finds_rawBetween_of_never
    (never : ∀ j, i + (mark ++ quote).length ≤ j → ¬quote <+: t.drop j) :
    (rawBetween mark quote).Finds g (.ofText t) depth i
      (.failed (missingRawQuote quote t.length)) := by
  obtain ⟨k, read, first | ⟨rfl, -⟩⟩ := exists_finds_rawContent g depth quote
    (length_opening_le opened hi)
  · exact absurd first.1.2 (never k first.1.1)
  · have found := finds_rawBetween_of_content opened read
    rwa [if_neg (never t.length (length_opening_le opened hi))] at found

/-- After the opening quote there is a raw text or an error. -/
theorem exists_finds_rawBetween (g : Grammar) (depth : Nat) :
    ∃ x ≠ .declined, x.Answers ∧ (rawBetween mark quote).Finds g (.ofText t) depth i x := by
  obtain ⟨k, read, -⟩ := exists_finds_rawContent g depth quote
    (length_opening_le opened hi)
  refine ⟨_, ?_, ?_, finds_rawBetween_of_content opened read⟩
  · split <;> nofun
  · split
    · exact Upshot.answers_matched _ _
    · exact Upshot.answers_failed _

end Opened

end Parsers

end Lexeme

/-! ### The first quote that stands -/

namespace Parser

variable {g : Grammar} {items : Items} {depth : Nat} {c : Cursor} {q : Parser}

/-- A parser with an upshot that is no non-match does not decline. -/
theorem Finds.decisive {x : Upshot} (h : q.Finds g items depth c.position x)
    (hx : x ≠ .declined) (hc : c.Placed items) :
    (q.account g items depth c.position).upshot ≠ .declined := by
  rwa [upshot_account, h.upshot_eq hc.le_size]

end Parser

namespace Lexeme

variable {g : Grammar} {mark quote t : Text} {quotes before : List Text} {depth i : Nat}

theorem exists_rawQuoted (mark : Text) (nonempty : quotes ≠ []) :
    ∃ p ps, quotes.map (rawBetween mark) = p :: ps ∧
      rawQuoted mark quotes = .ok (.choice p ps) := by
  cases quotes with
  | nil => exact absurd rfl nonempty
  | cons q qs => exact ⟨_, _, rfl, rfl⟩

/-- Where none of the quotes stands there is no raw text. -/
theorem finds_rawQuoted_of_absent {p : Parser} {ps : List Parser}
    (listed : quotes.map (rawBetween mark) = p :: ps)
    (absent : ∀ q ∈ quotes, ¬mark ++ q <+: t.drop i) :
    (Parser.choice p ps).Finds g (.ofText t) depth i .declined := by
  have alternatives : List.Forall₂ (fun p x => Parser.Finds g (.ofText t) depth p i x)
      (quotes.map (rawBetween mark)) (quotes.map fun _ => .declined) :=
    Parser.forall₂_finds_map fun q hq => finds_rawBetween_of_absent (absent q hq)
  have first := Parser.finds_choice (listed ▸ alternatives)
  rwa [Upshot.first_map_declined] at first

/-- Where the last quote is the first that stands, it decides. -/
theorem finds_rawQuoted_of_last {p : Parser} {ps : List Parser} {x : Upshot}
    (listed : (before ++ [quote]).map (rawBetween mark) = p :: ps)
    (absent : ∀ q ∈ before, ¬mark ++ q <+: t.drop i)
    (found : (rawBetween mark quote).Finds g (.ofText t) depth i x) :
    (Parser.choice p ps).Finds g (.ofText t) depth i x := by
  have alternatives : List.Forall₂ (fun p x => Parser.Finds g (.ofText t) depth p i x)
      ((before ++ [quote]).map (rawBetween mark)) ((before.map fun _ => .declined) ++ [x]) := by
    rw [List.map_append]
    exact List.rel_append
      (Parser.forall₂_finds_map fun q hq => finds_rawBetween_of_absent (absent q hq))
      (.cons found .nil)
  have first := Parser.finds_choice (listed ▸ alternatives)
  rw [Upshot.first_append, Upshot.first_map_declined, Upshot.orElse_declined, Upshot.first_cons,
    Upshot.first_nil, Upshot.orElse_declined_right] at first
  exact first

/-- Whatever stands there, the parser answers. -/
theorem exists_finds_rawQuoted (g : Grammar) (depth : Nat) {p : Parser} {ps : List Parser}
    (listed : quotes.map (rawBetween mark) = p :: ps) (hi : i ≤ t.length) :
    ∃ x : Upshot, x.Answers ∧ (Parser.choice p ps).Finds g (.ofText t) depth i x := by
  have each (q : Text) :
      ∃ x : Upshot, x.Answers ∧ (rawBetween mark q).Finds g (.ofText t) depth i x := by
    by_cases opened : mark ++ q <+: t.drop i
    · obtain ⟨x, -, answers, found⟩ := exists_finds_rawBetween opened hi g depth
      exact ⟨x, answers, found⟩
    · exact ⟨_, Upshot.answers_declined, finds_rawBetween_of_absent opened⟩
  choose upshot answers found using each
  have alternatives : List.Forall₂ (fun p x => Parser.Finds g (.ofText t) depth p i x)
      (quotes.map (rawBetween mark)) (quotes.map upshot) :=
    Parser.forall₂_finds_map fun q _ => found q
  exact ⟨_, Upshot.answers_first (List.forall_mem_map.2 fun q _ => answers q),
    Parser.finds_choice (listed ▸ alternatives)⟩

end Lexeme

/-- Raw texts between the quotes, on a stream over a text.  The parser always answers.  Where no
quote stands after the mark, it declines.  Otherwise the first quote that does decides: the output
is the text from there to its leftmost occurrence, whatever it holds, and the stream stands right
after that; if the quote does not occur, the parser fails with an error at the end of the text that
names it.  In either case the parser runs and makes its calls as if the later quotes were not
there. -/
theorem raw_texts_end_at_leftmost_quote (mark : Text) {quotes : List Text} (nonempty : quotes ≠ []) :
    ∃ p, Lexeme.rawQuoted mark quotes = .ok p ∧
      ∀ (g : Grammar) (t : Text) (depth : Nat) (c : Cursor), c.Placed (.ofText t) →
        let r := p.runWithin g (.ofText t) depth c
        (∃ o, r.ending = .answered o) ∧
        ((∀ q ∈ quotes, ¬mark ++ q <+: t.drop c.position) → r.Settles c .declined) ∧
        ∀ before quote after, quotes = before ++ quote :: after →
          (∀ q ∈ before, ¬mark ++ q <+: t.drop c.position) →
          mark ++ quote <+: t.drop c.position →
            let start := c.position + (mark ++ quote).length
            (∀ j, IsLeast {j | start ≤ j ∧ quote <+: t.drop j} j →
              r.Settles c (.matched (.text ((t.take j).drop start)) (j + quote.length))) ∧
            ((∀ j, start ≤ j → ¬quote <+: t.drop j) →
              r.Settles c (.failed (Lexeme.missingRawQuote quote t.length))) ∧
            ∃ p', Lexeme.rawQuoted mark (before ++ [quote]) = .ok p' ∧
              r = p'.runWithin g (.ofText t) depth c ∧
              (p.observeWithin g (.ofText t) depth c).account.calls =
                (p'.observeWithin g (.ofText t) depth c).account.calls := by
  obtain ⟨p, ps, listed, built⟩ := Lexeme.exists_rawQuoted mark nonempty
  refine ⟨_, built, fun g t depth c hc => ?_⟩
  have hi : c.position ≤ t.length := by simpa using hc.le_size
  obtain ⟨x, ⟨o, answered⟩, found⟩ := Lexeme.exists_finds_rawQuoted g depth listed hi
  refine ⟨⟨o, (found.settles hc).ending.trans answered⟩, fun absent => ?_, ?_⟩
  · exact (Lexeme.finds_rawQuoted_of_absent listed absent).settles hc
  rintro before quote after rfl absent opened
  have upTo : before ++ [quote] ≠ [] := by simp
  obtain ⟨q, qs, listed', built'⟩ := Lexeme.exists_rawQuoted mark upTo
  obtain ⟨x, decisive, -, found⟩ := Lexeme.exists_finds_rawBetween opened hi g depth
  -- the quotes after the first that stands are not tried, so they can be left off
  have inOrder := Parser.triesInOrder_choice g depth p ps hc
  have inOrder' := Parser.triesInOrder_choice g depth q qs hc
  rw [← listed, List.map_append, List.map_cons] at inOrder
  rw [← listed', List.map_append, List.map_singleton] at inOrder'
  obtain ⟨run, calls⟩ := (inOrder.of_decisive (found.decisive decisive hc)).same inOrder'
  refine ⟨fun j leftmost => ?_, fun never => ?_, _, built', run, calls⟩
  · rw [run]
    exact (Lexeme.finds_rawQuoted_of_last listed' absent
      (Lexeme.finds_rawBetween_of_leftmost opened hi leftmost)).settles hc
  · rw [run]
    exact (Lexeme.finds_rawQuoted_of_last listed' absent
      (Lexeme.finds_rawBetween_of_never opened hi never)).settles hc

/-- Of two quotes the longer one is tried first.  A part of it in the content does not end the text,
and neither does one after a backslash. -/
theorem raw_texts_end_at_leftmost_quote_of_two :
    let quotes : List Text := [.ofString "##", .ofString "#"]
    let t : Text := .ofString "r##a\\#b###"
    quotes ≠ [] ∧ Cursor.start.Placed (.ofText t) ∧
      ∃ p, Lexeme.rawQuoted (.ofString "r") quotes = .ok p ∧
        (p.runWithin .empty (.ofText t) 0 .start).Settles .start
          (.matched (.text (.ofString "a\\#b")) 9) := by
  intro quotes t
  have placed := Cursor.placed_start (.ofText t)
  have nonempty : quotes ≠ [] := List.cons_ne_nil _ _
  obtain ⟨p, built, law⟩ := raw_texts_end_at_leftmost_quote (.ofString "r") nonempty
  obtain ⟨closed, -⟩ :=
    (law .empty t 0 .start placed).2.2 [] (.ofString "##") [.ofString "#"] rfl nofun (by decide)
  refine ⟨nonempty, placed, p, built, closed 7 ⟨⟨by decide, by decide⟩, ?_⟩⟩
  rintro j ⟨le, stands⟩
  have early : ∀ j < 7, 3 ≤ j → ¬Text.ofString "##" <+: t.drop j := by decide
  exact Nat.le_of_not_lt fun lt => early j lt le stands

end Backtrack
