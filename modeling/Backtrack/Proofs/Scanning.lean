import Mathlib.Data.List.TakeWhile
import Backtrack.Lexeme.Diagnose
import Backtrack.Proofs.Literals
import Backtrack.Proofs.Membership

/-!
# Upshots on a text

What the parsers of single items, of words and of runs of a class come to on a text, said of the
text alone: a word matches where it is a prefix of what is left, and a run is as long as the class
and the bounds allow.

* `Parser.finds_charOf`, `Parser.finds_word`: one item, and several given ones.
* `Parser.finds_times_charOf`: runs of a class.
* `Value.located`: the errors of lexical rules by their place.
* `Parser.Reads`, `Parser.BreaksOff`: what a parser makes of a given text.
-/

namespace Backtrack

/-- The items in front that are accepted, up to the first that is not. -/
theorem takeWhile_append_of_head {α : Type} {accepts : α → Bool} {front rest : List α}
    (h : ∀ a ∈ front, accepts a = true) (hrest : ∀ a, rest.head? = some a → accepts a = false) :
    (front ++ rest).takeWhile accepts = front := by
  rw [List.takeWhile_append_of_pos h]
  cases rest with
  | nil => simp
  | cons a rest => simp [hrest a rfl]

/-- The items in front that are accepted end where the list does or an item is refused. -/
theorem takeWhile_eq_iff {α : Type} {accepts : α → Bool} {l run : List α} :
    l.takeWhile accepts = run ↔
      (∀ a ∈ run, accepts a = true) ∧ run <+: l ∧
        ∀ a, l[run.length]? = some a → accepts a = false := by
  constructor
  · rintro rfl
    refine ⟨fun a => List.mem_takeWhile_imp, List.takeWhile_prefix accepts, fun a ha => ?_⟩
    have refused := List.head?_dropWhile_not accepts l
    have rest : (l.dropWhile accepts).head? = some a := by
      rw [← List.takeWhile_append_dropWhile (p := accepts) (l := l),
        List.getElem?_append_right (by simp)] at ha
      simpa [List.head?_eq_getElem?] using ha
    simpa only [rest] using refused
  · rintro ⟨accepted, ⟨rest, rfl⟩, refused⟩
    refine takeWhile_append_of_head accepted fun a ha => refused a ?_
    rw [List.getElem?_append_right (Nat.le_refl _), Nat.sub_self, ← List.head?_eq_getElem?, ha]

namespace Value

theorem mapM_asText (ts : List Text) : (ts.map text).mapM asText = .ok ts := by
  rw [List.mapM_map]
  have same : asText ∘ text = fun t => (pure t : Except Fault Text) := rfl
  rw [same, List.mapM_pure, List.map_id']
  rfl

theorem joinedText_texts (ts : List Text) : (list (ts.map text)).joinedText = .ok ts.flatten := by
  rw [joinedText, mapM_asText]
  rfl

/-- The items of a text that were read one by one are joined to the text. -/
theorem joinedText_chars (t : Text) : (list (t.map char)).joinedText = .ok t := by
  have texts : t.map char = (t.map fun c => [c]).map text := by
    rw [List.map_map]
    rfl
  rw [texts, joinedText_texts, ← List.flatMap_def, List.flatMap_singleton']

theorem joined_of_joinedText {u : Value} {t : Text} (h : u.joinedText = .ok t) :
    u.joined = .ok (text t) := by
  rw [joined, h]
  rfl

end Value

/-- The next item of a text is a code point. -/
theorem Cursor.readItem_ofText (t : Text) (c : Cursor) :
    c.readItem (.ofText t) = match t[c.position]? with
      | some a => .answer (.matched (.char a)) c.advance
      | none => .answer .notMatched c := by
  have get := Items.get?_ofText t c.position
  cases ha : t[c.position]? with
  | some a => exact readItem_of_some rfl (get.trans (by rw [ha]; rfl))
  | none => exact readItem_of_none rfl (get.trans (by rw [ha]; rfl))

theorem Items.lookup_ofText (group : Text) (a : CodePoint) :
    (Items.ofText group).lookup (.char a) = .ok (group.contains a) := by
  have hashed : (Value.char a).obstacle? ≠ some .writable := by simp [Value.char, Value.obstacle?]
  rw [lookup_of_obstacle?_ne hashed]
  simp [ofText, contains, Value.char]

namespace Upshot

/-- One item of a text that is accepted. -/
def ofItem (accepts : CodePoint → Bool) (t : Text) (i : Nat) : Upshot :=
  match t[i]? with
  | some a => if accepts a then .matched (.char a) (i + 1) else .declined
  | none => .declined

/-- A word as it stands in a text. -/
def ofWord (w t : Text) (i : Nat) : Upshot :=
  if w <+: t.drop i then .matched (.text w) (i + w.length) else .declined

theorem ofItem_eq_matched {accepts : CodePoint → Bool} {t : Text} {i j : Nat} {v : Value}
    (h : ofItem accepts t i = .matched v j) :
    ∃ a, t[i]? = some a ∧ accepts a = true ∧ v = .char a ∧ j = i + 1 := by
  unfold ofItem at h
  split at h
  · rename_i a ha
    split at h
    · rename_i accepted
      obtain ⟨rfl, rfl⟩ := Upshot.matched.inj h
      exact ⟨a, ha, accepted, rfl, rfl⟩
    · cases h
  · cases h

theorem ofItem_eq_declined {accepts : CodePoint → Bool} {t : Text} {i : Nat}
    (h : ∀ v j, ofItem accepts t i ≠ .matched v j) : ofItem accepts t i = .declined := by
  unfold ofItem at h ⊢
  split at h
  · split at h
    · exact absurd rfl (h _ _)
    · rename_i refused
      exact if_neg refused
  · rfl

theorem ofWord_singleton (a : CodePoint) (t : Text) (i : Nat) :
    ofWord [a] t i = if t[i]? = some a then .matched (.text [a]) (i + 1) else .declined := by
  simp only [ofWord, List.singleton_prefix_iff_head?_eq_some, List.head?_drop,
    List.length_singleton]

theorem ofWord_andThen (w t : Text) (i : Nat) (y : Value → Nat → Upshot) :
    (ofWord w t i).andThen y =
      if w <+: t.drop i then y (.text w) (i + w.length) else .declined := by
  unfold ofWord
  split <;> rfl

theorem ofWord_eq_matched {w t : Text} {i j : Nat} {v : Value} (h : ofWord w t i = .matched v j) :
    v = .text w ∧ j = i + w.length := by
  unfold ofWord at h
  split at h
  · cases h
    exact ⟨rfl, rfl⟩
  · cases h

end Upshot

/-! ### Words -/

/-- What is left of a text from a place on is the item there and what is left after it. -/
theorem drop_eq_cons {α : Type} {l : List α} {i : Nat} {a : α} (h : l[i]? = some a) :
    l.drop i = a :: l.drop (i + 1) := by
  obtain ⟨hi, rfl⟩ := List.getElem?_eq_some_iff.1 h
  exact List.drop_eq_getElem_cons hi

/-- The part of a list between two places is what stands there. -/
theorem drop_take_of_prefix_drop {α : Type} {l w : List α} {i : Nat} (h : w <+: l.drop i) :
    (l.take (i + w.length)).drop i = w := by
  rw [List.drop_take, Nat.add_sub_cancel_left, ← List.prefix_iff_eq_take.1 h]

namespace Parser

variable {g : Grammar} {t : Text} {depth i : Nat}

theorem finds_item : item.Finds g (.ofText t) depth i (.ofItem (fun _ => true) t i) := by
  refine finds_of_upshot (fun _ => nofun) fun _ => ?_
  rw [upshot, runWithin, runWith, Cursor.readItem_ofText, Upshot.ofItem, Cursor.position_point]
  cases t[i]? <;> rfl

theorem finds_charOf (group : Text) :
    (charOf group).Finds g (.ofText t) depth i (.ofItem group.contains t i) := by
  have found : (charOf group).Finds g (.ofText t) depth i _ := finds_oneOf (.ofText group)
  have member : Upshot.ofMember (.ofText t) (.ofText group) i = .ofItem group.contains t i := by
    unfold Upshot.ofMember Upshot.ofItem
    rw [Items.isCountable_ofText, if_pos rfl, Items.get?_ofText]
    cases t[i]? with
    | none => rfl
    | some a => simp only [Option.map_some, Items.lookup_ofText]
  rwa [member] at found

/-- No member of a class is next. -/
theorem finds_absent_charOf (group : Text) :
    (absent (charOf group)).Finds g (.ofText t) depth i
      (if (t[i]?).any group.contains then .declined else .matched .nothing i) := by
  have found : (absent (charOf group)).Finds g (.ofText t) depth i _ :=
    finds_absent (finds_charOf group)
  unfold Upshot.ofItem at found
  cases hi : t[i]? with
  | none => simpa [hi] using found
  | some a =>
    by_cases ha : a ∈ group
    · simpa [hi, ha] using found
    · simpa [hi, ha] using found

theorem finds_word (w : Text) : (word w).Finds g (.ofText t) depth i (.ofWord w t i) := by
  have found : (word w).Finds g (.ofText t) depth i _ :=
    finds_literal (fun k => (Items.get?_ofText w k).trans List.getElem?_map.symm) (.text w)
  simpa only [Upshot.ofLiteral_of_countable (Items.isCountable_ofText t), Upshot.ofWord,
    Items.startsAt_ofText, List.length_map] using found

end Parser

/-! ### Runs of a class -/

/-- What a repetition within the bounds may read of a text. -/
def Bounds.window (b : Bounds) (t : Text) : Text :=
  match b.most with
  | none => t
  | some m => t.take m

/-- The run of a class in front of a text, as far as the bounds allow. -/
def Bounds.run (b : Bounds) (group t : Text) : Text := (b.window t).takeWhile (group.contains ·)

/-- A run of a class as it stands in a text. -/
def Upshot.ofRun (b : Bounds) (group t : Text) (i : Nat) : Upshot :=
  let run := b.run group (t.drop i)
  if run.length < b.least then .declined
  else .matched (.list (run.map Value.char)) (i + run.length)

/-- A run of a fixed length is there if the items there are all of the class. -/
theorem Upshot.ofRun_exactly (n : Nat) (group t : Text) (i : Nat) :
    ofRun (.exactly n) group t i =
      let window := (t.drop i).take n
      if window.length = n ∧ window.all group.contains then
        .matched (.list (window.map Value.char)) (i + n)
      else .declined := by
  have run : Bounds.run (.exactly n) group (t.drop i) =
      ((t.drop i).take n).takeWhile group.contains := rfl
  have least : (Bounds.exactly n).least = n := rfl
  unfold ofRun
  rw [run, least]
  have most : ((t.drop i).take n).length ≤ n := List.length_take_le n _
  generalize (t.drop i).take n = window at most
  dsimp only
  by_cases full : window.length = n ∧ window.all group.contains = true
  · have whole : window.takeWhile group.contains = window :=
      List.takeWhile_eq_self_iff.2 (List.all_eq_true.1 full.2)
    rw [if_pos full, whole, full.1, if_neg (Nat.lt_irrefl n)]
  · have short : (window.takeWhile group.contains).length < n := by
      refine Nat.lt_of_not_le fun long => full ?_
      have initial := List.takeWhile_prefix (l := window) group.contains
      have whole := initial.eq_of_length_le (by omega)
      have same := congrArg List.length whole
      exact ⟨by omega, List.all_eq_true.2 (List.takeWhile_eq_self_iff.1 whole)⟩
    rw [if_neg full, if_pos short]

/-- Items of a class that match in a row are the text that they are. -/
theorem Parser.Matches.exists_run {group t : Text} {i j : Nat} {vs : List Value}
    (h : Parser.Matches (Upshot.ofItem group.contains t) i vs j) :
    ∃ run : Text, vs = run.map Value.char ∧ j = i + run.length ∧ t.drop i = run ++ t.drop j ∧
      ∀ a ∈ run, group.contains a = true := by
  induction h with
  | nil i => exact ⟨[], rfl, rfl, rfl, nofun⟩
  | cons first _ ih =>
    obtain ⟨a, ha, accepted, rfl, rfl⟩ := Upshot.ofItem_eq_matched first
    obtain ⟨run, rfl, rfl, rest, inside⟩ := ih
    refine ⟨a :: run, rfl, by rw [List.length_cons]; omega, ?_,
      List.forall_mem_cons.2 ⟨accepted, inside⟩⟩
    rw [drop_eq_cons ha, rest]
    rfl

theorem Bounds.run_full {b : Bounds} {group run rest : Text} (most : b.most = some run.length)
    (inside : ∀ a ∈ run, group.contains a = true) : b.run group (run ++ rest) = run := by
  rw [Bounds.run, Bounds.window, most]
  simp only [List.take_left]
  exact List.takeWhile_eq_self_iff.2 inside

theorem Bounds.run_of_head {b : Bounds} {group run rest : Text}
    (room : ∀ m, b.most = some m → run.length < m)
    (inside : ∀ a ∈ run, group.contains a = true)
    (stop : ∀ a, rest.head? = some a → group.contains a = false) :
    b.run group (run ++ rest) = run := by
  unfold Bounds.run Bounds.window
  split
  · exact takeWhile_append_of_head inside stop
  · rename_i m hm
    have lt := room m hm
    rw [List.take_append, List.take_of_length_le (by omega)]
    refine takeWhile_append_of_head inside fun a ha => stop a ?_
    rwa [List.head?_take, if_neg (by omega)] at ha

namespace Parser

variable {g : Grammar} {t : Text} {depth i : Nat}

/-- A repetition of the items of a class reads the run of them. -/
theorem finds_times_charOf (group : Text) (b : Bounds) :
    (times (charOf group) b).Finds g (.ofText t) depth i (.ofRun b group t i) := by
  refine finds_of_le_size fun hi => ?_
  have item (n : Nat) : (charOf group).Finds g (.ofText t) depth n
      (.ofItem group.contains t n) := finds_charOf group
  have moves : b.most = none → ∀ n v, Upshot.ofItem group.contains t n ≠ .matched v n :=
    fun _ n v h => by
      obtain ⟨-, -, -, -, stop⟩ := Upshot.ofItem_eq_matched h
      omega
  obtain ⟨vs, j, chain, -, cases⟩ := exists_finds_times item moves hi
  obtain ⟨run, rfl, rfl, split, inside⟩ := chain.exists_run
  rw [List.length_map] at cases
  unfold Upshot.ofRun
  rcases cases with ⟨most, found⟩ | ⟨room, unmatched, found⟩
  · have least := b.least_le_most _ most
    rw [split, Bounds.run_full most inside, if_neg (by omega)]
    exact found
  · -- an item of the class after the run would be one more match
    have stop : ∀ a, (t.drop (i + run.length)).head? = some a → group.contains a = false := by
      intro a ha
      rw [List.head?_drop] at ha
      refine Bool.eq_false_iff.2 fun accepted => ?_
      refine unmatched (.char a) (i + run.length + 1) ?_
      rw [Upshot.ofItem, ha]
      exact if_pos accepted
    rw [split, Bounds.run_of_head room inside stop]
    rwa [Upshot.ofItem_eq_declined unmatched, Upshot.orElse_declined] at found

/-- Any number of members of a class are read as far as they go. -/
theorem finds_many_charOf (group : Text) :
    (many (.charOf group)).Finds g (.ofText t) depth i
      (let run := (t.drop i).takeWhile group.contains
      .matched (.list (run.map Value.char)) (i + run.length)) := by
  have found : (many (.charOf group)).Finds g (.ofText t) depth i _ :=
    finds_times_charOf group (.atLeast 0)
  have least : ¬(Bounds.run (.atLeast 0) group (t.drop i)).length < (Bounds.atLeast 0).least :=
    Nat.not_lt_zero _
  unfold Upshot.ofRun at found
  rwa [if_neg least] at found

/-- A function of at least one item of a class is one of the longest run of them. -/
theorem finds_map_many1 {group : Text} {accepts : CodePoint → Bool}
    (same : ∀ c, group.contains c = accepts c) {f : Value → Except Fault Value}
    {w : Text → Except Fault Value}
    (hf : ∀ run, run ≠ [] → (∀ c ∈ run, accepts c = true) →
      f (.list (run.map Value.char)) = w run) :
    (map (many1 (charOf group)) f).Finds g (.ofText t) depth i
      (let run := (t.drop i).takeWhile accepts
      if run = [] then .declined else .ofExcept (i + run.length) (w run)) := by
  have items : (many1 (charOf group)).Finds g (.ofText t) depth i
      (.ofRun (.atLeast 1) group t i) := finds_times_charOf group (.atLeast 1)
  have longest : Bounds.run (.atLeast 1) group (t.drop i) = (t.drop i).takeWhile accepts := by
    rw [← funext same]
    rfl
  unfold Upshot.ofRun at items
  rw [longest] at items
  generalize hrun : (t.drop i).takeWhile accepts = run at items
  have accepted : ∀ c ∈ run, accepts c = true := fun c hc => by
    rw [← hrun] at hc
    exact List.mem_takeWhile_imp hc
  dsimp only
  cases run with
  | nil => exact finds_map_declined items
  | cons c run =>
    have matched : (many1 (charOf group)).Finds g (.ofText t) depth i
        (.matched (.list ((c :: run).map Value.char)) (i + (c :: run).length)) := items
    have found := finds_map (f := f) matched
    rwa [Upshot.andThen_matched, hf _ (List.cons_ne_nil c run) accepted] at found

end Parser

/-! ### Errors -/

/-- An error with the message at the `count` items from `start` on. -/
def Value.located (start count : Nat) (message : Text) : Value :=
  .diagnostic ⟨⟨start, start + count, Nat.le_add_right start count⟩, some message⟩

namespace Lexeme

theorem report_point (message : Text) (i : Nat) :
    report message (.point i) = .ok (.located i 0 message) := rfl

theorem report_upTo_succ (message : Text) (i : Nat) :
    report message ((Span.point i).upTo (i + 1)) = .ok (.located i 1 message) := by
  have one : (Span.point i).upTo (i + 1) = ⟨i, i + 1, Nat.le_add_right i 1⟩ :=
    Span.ext rfl (Span.stop_upTo (Nat.le_succ i))
  rw [one]
  rfl

/-- Grown backwards from a place, the error covers the items that were read up to there. -/
theorem reportFrom_point (count : Nat) (message : Text) (i : Nat) :
    reportFrom count message (.point (i + count)) = .ok (.located i count message) := by
  have grown : (Span.point (i + count)).growBefore count =
      .ok ⟨i, i + count, Nat.le_add_right i count⟩ := by
    rw [Span.growBefore, Span.make_eq_ok_iff]
    dsimp only [Span.start_point, Span.stop_point]
    omega
  rw [reportFrom, grown]
  rfl

end Lexeme

/-! ### Reading back -/

/-- Wherever the text stands in front of the rest, the parser comes to what is said of the place. -/
def Parser.ComesTo (p : Parser) (w : Text) (x : Nat → Upshot) (rest : Text) : Prop :=
  ∀ (g : Grammar) (front : Text) (depth : Nat) (c : Cursor),
    c.Placed (.ofText (front ++ (w ++ rest))) → c.position = front.length →
      (p.runWithin g (.ofText (front ++ (w ++ rest))) depth c).Settles c (x front.length)

/-- In front of the rest, the parser reads the text as the value and stops right after it. -/
def Parser.Reads (p : Parser) (w : Text) (v : Value) (rest : Text) : Prop :=
  p.ComesTo w (fun i => .matched v (i + w.length)) rest

/-- In front of the rest, the parser breaks off at the text with the fault. -/
def Parser.BreaksOff (p : Parser) (w : Text) (f : Fault) (rest : Text) : Prop :=
  p.ComesTo w (fun _ => .raised f) rest

/-- It is enough to look at what the parser finds where the text stands. -/
theorem Parser.comesTo_of_finds {p : Parser} {w rest : Text} {x : Nat → Upshot}
    {scan : Text → Nat → Upshot} (found : ∀ g t depth i, p.Finds g (.ofText t) depth i (scan t i))
    (h : ∀ t i, t.drop i = w ++ rest → scan t i = x i) : p.ComesTo w x rest := by
  intro g front depth c hc position
  have settles := (found g _ depth c.position).settles hc
  have left : (front ++ (w ++ rest)).drop c.position = w ++ rest := by
    rw [position, List.drop_left]
  rwa [h _ _ left, position] at settles

end Backtrack
