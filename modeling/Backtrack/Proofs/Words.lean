import Backtrack.Lexeme.Word
import Backtrack.Proofs.Alternation
import Backtrack.Proofs.Scanning

/-!
# Keywords and identifiers

Where the next character may start an identifier, the identifier there is the longest run of
identifier characters.  A keyword matches where it stands and no identifier character follows, so if
it is itself a whole identifier, it matches exactly where it is the identifier.  Keywords in front
of identifiers in a choice therefore change nothing.

* `Text.isIdentifier`, `Text.identifierAt?`: whole identifiers, and the one at a place.
* `Text.identifierAt?_eq_some_iff`: where a whole identifier is the one at a place.
* `Lexeme.finds_identifier`, `Lexeme.finds_keyword`: what the parsers find.
* `keywords_agree_with_identifiers`: the law.
-/

namespace Backtrack

open Text (Class.identifierStart Class.identifierContinue)

/-! ### Identifiers in a text -/

namespace Text

/-- Whether the text is a whole identifier. -/
def isIdentifier : Text → Bool
  | [] => false
  | a :: rest => Class.identifierStart.contains a && rest.all Class.identifierContinue.contains

/-- Whether the character at `i` may go on an identifier. -/
def continuesAt (t : Text) (i : Nat) : Bool := (t[i]?).any Class.identifierContinue.contains

/-- The identifier at `i`. -/
def identifierAt? (t : Text) (i : Nat) : Option Text :=
  if (t[i]?).any Class.identifierStart.contains then
    some ((t.drop i).takeWhile Class.identifierContinue.contains)
  else none

variable {t w : Text} {i : Nat} {a : CodePoint}

theorem Class.contains_continue_of_start (h : Class.identifierStart.contains a = true) :
    Class.identifierContinue.contains a = true := by
  rw [List.contains_iff_mem] at h ⊢
  exact List.mem_append_right _ h

theorem continuesAt_eq_false_iff :
    continuesAt t i = false ↔
      ∀ a, t[i]? = some a → Class.identifierContinue.contains a = false := by
  unfold continuesAt
  cases t[i]? <;> simp

/-- A whole identifier is the one at a place if it stands there and cannot be made longer. -/
theorem identifierAt?_eq_some_iff (hw : w.isIdentifier = true) :
    identifierAt? t i = some w ↔ w <+: t.drop i ∧ continuesAt t (i + w.length) = false := by
  cases w with
  | nil => cases hw
  | cons a rest =>
    rw [isIdentifier, Bool.and_eq_true, List.all_eq_true] at hw
    obtain ⟨start, going⟩ := hw
    have inside : ∀ b ∈ a :: rest, Class.identifierContinue.contains b = true :=
      List.forall_mem_cons.2 ⟨Class.contains_continue_of_start start, going⟩
    have longest : (t.drop i).takeWhile Class.identifierContinue.contains = a :: rest ↔ _ :=
      takeWhile_eq_iff
    rw [List.getElem?_drop, ← continuesAt_eq_false_iff] at longest
    unfold identifierAt?
    constructor
    · intro h
      split at h
      · exact (longest.1 (Option.some.inj h)).2
      · cases h
    · intro stands
      have first : t[i]? = some a := by
        rw [← List.head?_drop, ← List.singleton_prefix_iff_head?_eq_some]
        exact (List.prefix_append [a] rest).trans stands.1
      rw [first, Option.any_some, if_pos start, longest.2 ⟨inside, stands⟩]

end Text

/-! ### What the parsers find -/

namespace Lexeme

variable {g : Grammar} {t : Text} {depth i : Nat}

/-- An identifier as it stands in a text. -/
def identifierUpshot (t : Text) (i : Nat) : Upshot :=
  match t.identifierAt? i with
  | some w => .matched (.text w) (i + w.length)
  | none => .declined

theorem spell_chars (a : CodePoint) (rest : Text) :
    spell (.tuple [.char a, .list (rest.map Value.char)]) = .ok (.text (a :: rest)) := by
  simp only [spell, Value.joinedText_chars]
  rfl

theorem finds_identifier : identifier.Finds g (.ofText t) depth i (identifierUpshot t i) := by
  have start : (Parser.charOf Class.identifierStart).Finds g (.ofText t) depth i _ :=
    Parser.finds_charOf Class.identifierStart
  have both := Parser.finds_seq start fun _ _ _ =>
    Parser.finds_many_charOf Class.identifierContinue
  unfold Upshot.ofItem at both
  unfold identifierUpshot Text.identifierAt?
  cases hi : t[i]? with
  | none =>
    rw [hi] at both
    exact Parser.finds_map_declined both
  | some a =>
    simp only [hi, Option.any_some] at both ⊢
    by_cases ha : Class.identifierStart.contains a = true
    · rw [if_pos ha] at both ⊢
      have spelt := Parser.finds_map_matched both (spell_chars a _)
      rw [Nat.add_assoc, Nat.add_comm 1] at spelt
      rwa [drop_eq_cons hi, List.takeWhile_cons_of_pos (Text.Class.contains_continue_of_start ha)]
    · rw [if_neg ha] at both ⊢
      exact Parser.finds_map_declined both

/-- A keyword matches where it stands and is not continued. -/
theorem finds_keyword (w : Text) :
    (keyword w).Finds g (.ofText t) depth i
      (if w <+: t.drop i ∧ t.continuesAt (i + w.length) = false then
        .matched (.text w) (i + w.length)
      else .declined) := by
  have word : (Parser.word w).Finds g (.ofText t) depth i _ := Parser.finds_word w
  have absent (j : Nat) : (Parser.absent (.charOf Class.identifierContinue)).Finds g (.ofText t)
      depth j (if t.continuesAt j then .declined else .matched .nothing j) :=
    Parser.finds_absent_charOf Class.identifierContinue
  have found : (keyword w).Finds g (.ofText t) depth i _ :=
    Parser.finds_lookingAt word fun _ j _ => absent j
  rw [Upshot.ofWord_andThen] at found
  by_cases stands : w <+: t.drop i
  · cases going : t.continuesAt (i + w.length) with
    | true => simpa [stands, going] using found
    | false => simpa [stands, going] using found
  · simpa [stands] using found

/-- A whole identifier as a keyword matches exactly where it is the identifier. -/
theorem finds_keyword_of_isIdentifier {w : Text} (hw : w.isIdentifier = true) :
    (keyword w).Finds g (.ofText t) depth i
      (if t.identifierAt? i = some w then .matched (.text w) (i + w.length) else .declined) := by
  simp only [Text.identifierAt?_eq_some_iff hw]
  exact finds_keyword w

/-- Keywords in front of identifiers change nothing. -/
theorem first_keywords (t : Text) (i : Nat) (ws : List Text) :
    Upshot.first ((ws.map fun w => if t.identifierAt? i = some w then
        .matched (.text w) (i + w.length) else .declined) ++ [identifierUpshot t i]) =
      identifierUpshot t i := by
  induction ws with
  | nil => exact Upshot.orElse_declined_right _
  | cons w ws ih =>
    rw [List.map_cons, List.cons_append, Upshot.first_cons, ih]
    split
    · rename_i same
      rw [identifierUpshot, same]
      rfl
    · rfl

theorem exists_choiceFrom_keywords (ws : List Text) :
    ∃ p ps, ws.map keyword ++ [identifier] = p :: ps ∧
      Parser.choiceFrom ((ws.map keyword ++ [identifier]).map .parser) = .ok (.choice p ps) := by
  cases ws with
  | nil => exact ⟨_, _, rfl, Parser.choiceFrom_parsers _ _⟩
  | cons w ws => exact ⟨_, _, rfl, Parser.choiceFrom_parsers _ _⟩

theorem finds_keywords {ws : List Text} (hws : ∀ w ∈ ws, w.isIdentifier = true) {p : Parser}
    {ps : List Parser} (listed : ws.map keyword ++ [identifier] = p :: ps) :
    (Parser.choice p ps).Finds g (.ofText t) depth i (identifierUpshot t i) := by
  -- each keyword declines or finds what the parser of identifiers does
  have alternatives : List.Forall₂ (fun p x => Parser.Finds g (.ofText t) depth p i x)
      (ws.map keyword ++ [identifier])
      ((ws.map fun w => if t.identifierAt? i = some w then
        .matched (.text w) (i + w.length) else .declined) ++ [identifierUpshot t i]) := by
    refine List.rel_append ?_ (.cons finds_identifier .nil)
    exact Parser.forall₂_finds_map fun w hw => finds_keyword_of_isIdentifier (hws w hw)
  have found := Parser.finds_choice (listed ▸ alternatives)
  rwa [first_keywords] at found

end Lexeme

/-! ### Streams -/

namespace Text

variable {t w : Text} {i : Nat}

/-- Where an identifier may start there is one, and it is the longest run. -/
theorem identifierAt?_eq_some_iff_start :
    identifierAt? t i = some w ↔
      (∃ a ∈ Class.identifierStart, t[i]? = some a) ∧
        w = (t.drop i).takeWhile Class.identifierContinue.contains := by
  unfold identifierAt?
  cases t[i]? with
  | none => simp
  | some a =>
    by_cases ha : a ∈ Class.identifierStart
    · simp [ha, eq_comm]
    · simp [ha]

end Text

namespace Lexeme

variable {g : Grammar} {t w : Text} {depth : Nat} {c : Cursor}

/-- The identifier at the stream is what the parser of identifiers matches. -/
theorem ending_identifier_iff (hc : c.Placed (.ofText t)) {v : Value} :
    (identifier.runWithin g (.ofText t) depth c).ending = .answered (.matched v) ↔
      ∃ w, t.identifierAt? c.position = some w ∧ v = .text w := by
  have found : identifier.Finds g (.ofText t) depth c.position _ := finds_identifier
  rw [(found c hc rfl).ending, identifierUpshot]
  cases t.identifierAt? c.position with
  | none => simp [Upshot.ending]
  | some w => simp [Upshot.ending, eq_comm]

theorem ending_identifier_text_iff (hc : c.Placed (.ofText t)) :
    (identifier.runWithin g (.ofText t) depth c).ending = .answered (.matched (.text w)) ↔
      t.identifierAt? c.position = some w := by
  rw [ending_identifier_iff hc]
  constructor
  · rintro ⟨w', h, same⟩
    rwa [Value.text.inj same]
  · exact fun h => ⟨w, h, rfl⟩

end Lexeme

/-- Identifiers and keywords on a stream over a text.  The parser of identifiers matches exactly
where the next character may start one; its output is the longest run of identifier characters
there, which is the text that it reads.  A keyword that is a whole identifier matches exactly where
that is the output, and then leaves the stream in the same state.  So keywords in front of
identifiers in a choice are the same as identifiers alone: none of them breaks a longer one in
two. -/
theorem keywords_agree_with_identifiers (g : Grammar) (t : Text) (depth : Nat) {c : Cursor}
    (hc : c.Placed (.ofText t)) :
    let r := Lexeme.identifier.runWithin g (.ofText t) depth c
    let longest := (t.drop c.position).takeWhile Class.identifierContinue.contains
    ((∃ v, r.ending = .answered (.matched v)) ↔
      ∃ a ∈ Class.identifierStart, t[c.position]? = some a) ∧
    (∀ v, r.ending = .answered (.matched v) →
      v = .text longest ∧ r.Settles c (.matched v (c.position + longest.length)) ∧
        longest = (t.take r.state.position).drop c.position) ∧
    ((∀ v, r.ending ≠ .answered (.matched v)) → r.Settles c .declined) ∧
    (∀ w : Text, w.isIdentifier = true →
      let k := (Lexeme.keyword w).runWithin g (.ofText t) depth c
      ((∃ v, k.ending = .answered (.matched v)) ↔ r.ending = .answered (.matched (.text w))) ∧
        (r.ending = .answered (.matched (.text w)) → k.ending = r.ending ∧ k.state = r.state)) ∧
    ∀ ws : List Text, (∀ w ∈ ws, w.isIdentifier = true) →
      ∃ p, Parser.choiceFrom ((ws.map Lexeme.keyword ++ [Lexeme.identifier]).map .parser) = .ok p ∧
        (p.runWithin g (.ofText t) depth c).ending = r.ending ∧
        (p.runWithin g (.ofText t) depth c).state = r.state := by
  intro r longest
  have found : Lexeme.identifier.Finds g (.ofText t) depth c.position _ := Lexeme.finds_identifier
  have settles : r.Settles c _ := found.settles hc
  have matches_iff {w : Text} : r.ending = .answered (.matched (.text w)) ↔ _ :=
    Lexeme.ending_identifier_text_iff hc
  refine ⟨?_, fun v hv => ?_, fun unmatched => ?_, fun w hw => ?_, fun ws hws => ?_⟩
  · constructor
    · rintro ⟨v, hv⟩
      obtain ⟨w, hw, -⟩ := (Lexeme.ending_identifier_iff hc).1 hv
      exact (Text.identifierAt?_eq_some_iff_start.1 hw).1
    · exact fun start => ⟨.text longest,
        matches_iff.2 (Text.identifierAt?_eq_some_iff_start.2 ⟨start, rfl⟩)⟩
  · obtain ⟨w, hw, rfl⟩ := (Lexeme.ending_identifier_iff hc).1 hv
    obtain rfl : w = longest := (Text.identifierAt?_eq_some_iff_start.1 hw).2
    rw [Lexeme.identifierUpshot, hw] at settles
    refine ⟨rfl, settles, ?_⟩
    rw [settles.2]
    exact (drop_take_of_prefix_drop (List.takeWhile_prefix _)).symm
  · cases h : t.identifierAt? c.position with
    | none =>
      rwa [Lexeme.identifierUpshot, h] at settles
    | some w => exact absurd (matches_iff.2 h) (unmatched _)
  · have word : (Lexeme.keyword w).Finds g (.ofText t) depth c.position _ :=
      Lexeme.finds_keyword_of_isIdentifier hw
    have keyword := word.settles hc
    by_cases same : t.identifierAt? c.position = some w
    · rw [if_pos same] at keyword
      rw [Lexeme.identifierUpshot, same] at settles
      have alike := keyword.same settles
      exact ⟨⟨fun _ => settles.1, fun _ => ⟨_, keyword.1⟩⟩, fun _ => ⟨alike.ending, alike.state⟩⟩
    · rw [if_neg same] at keyword
      refine ⟨⟨?_, fun h => absurd (matches_iff.1 h) same⟩, fun h => absurd (matches_iff.1 h) same⟩
      rintro ⟨v, hv⟩
      cases hv.symm.trans keyword.1
  · obtain ⟨p, ps, listed, built⟩ := Lexeme.exists_choiceFrom_keywords ws
    have chosen : (Parser.choice p ps).Finds g (.ofText t) depth c.position _ :=
      Lexeme.finds_keywords hws listed
    have same := (chosen.settles hc).same settles
    exact ⟨_, built, same.ending, same.state⟩

/-- A keyword with which a longer identifier begins is not read out of it, and the choice reads the
whole identifier. -/
theorem keywords_agree_with_identifiers_letter :
    let t := Text.ofString "1letter "
    let c := Cursor.start.advance
    let words := [Text.ofString "let", Text.ofString "in"]
    c.Placed (.ofText t) ∧ (∀ w ∈ words, w.isIdentifier = true) ∧
      (∀ v, ((Lexeme.keyword (.ofString "let")).runWithin .empty (.ofText t) 0 c).ending ≠
        .answered (.matched v)) ∧
      ∃ p, Parser.choiceFrom
          ((words.map Lexeme.keyword ++ [Lexeme.identifier]).map .parser) = .ok p ∧
        (p.runWithin .empty (.ofText t) 0 c).ending =
          .answered (.matched (.text (.ofString "letter"))) := by
  intro t c words
  have placed : c.Placed (.ofText t) := ⟨rfl, by decide⟩
  have whole : ∀ w ∈ words, w.isIdentifier = true := by decide
  obtain ⟨-, -, -, keywords, choices⟩ := keywords_agree_with_identifiers .empty t 0 placed
  obtain ⟨p, built, same, -⟩ := choices words whole
  have identifier : (Lexeme.identifier.runWithin .empty (.ofText t) 0 c).ending =
      .answered (.matched (.text (.ofString "letter"))) :=
    (Lexeme.ending_identifier_text_iff placed).2 (by decide)
  refine ⟨placed, whole, fun v hv => ?_, p, built, same.trans identifier⟩
  have read := (keywords _ (whole _ (.head _))).1.1 ⟨v, hv⟩
  cases read.symm.trans identifier

end Backtrack
