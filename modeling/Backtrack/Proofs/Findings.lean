import Mathlib.Data.List.Forall2
import Backtrack.Proofs.Upshots
import Backtrack.Value.Parts

/-!
# Findings

A composed parser does the same to every stream that stands at one place.  What it does there is its
upshot, so the judgement about the whole is found by following the structure of the parser: there is
one rule for each combinator, read off the rule for its upshot.

* `Parser.Finds`: the judgement that a parser comes to an upshot at a place, on every stream.
* `Parser.finds_of_upshot`: it is enough to know the upshot.
* `Parser.exists_finds_times`: a repetition follows the matches of its body.
-/

namespace Backtrack

/-- Wherever it is run at place `i`, the parser does to its stream what the upshot says. -/
def Parser.Finds (g : Grammar) (items : Items) (depth : Nat) (p : Parser) (i : Nat) (x : Upshot) :
    Prop :=
  ∀ c : Cursor, c.Placed items → c.position = i → (p.runWithin g items depth c).Settles c x

namespace Parser

variable {g : Grammar} {items : Items} {depth i : Nat} {x : Upshot} {p q : Parser}

theorem Finds.settles {c : Cursor} (h : p.Finds g items depth c.position x) (hc : c.Placed items) :
    (p.runWithin g items depth c).Settles c x :=
  h c hc rfl

theorem Finds.upshot_eq (h : p.Finds g items depth i x) (hi : i ≤ items.size) :
    p.upshot g items depth i = x :=
  (h (.point i) (Cursor.placed_point hi) rfl).upshot_eq

/-- No stream stands past the end of its input. -/
theorem finds_of_le_size (h : i ≤ items.size → p.Finds g items depth i x) :
    p.Finds g items depth i x :=
  fun c hc hi => h (hi ▸ hc.le_size) c hc hi

/-- A composed parser is judged by its upshot. -/
theorem finds_of_upshot (hp : ∀ rule, p.untraced ≠ .custom rule)
    (h : i ≤ items.size → p.upshot g items depth i = x) : p.Finds g items depth i x := by
  rintro c hc rfl
  exact h hc.le_size ▸ settles_upshot g depth hp hc

/-- What comes after the first of two parts is found where that part ends. -/
theorem Finds.andThen_eq (h : p.Finds g items depth i x) (hi : i ≤ items.size)
    {y z : Value → Nat → Upshot}
    (same : ∀ v j, x = .matched v j → j ≤ items.size → y v j = z v j) :
    (p.upshot g items depth i).andThen y = x.andThen z := by
  rw [← h.upshot_eq hi] at same ⊢
  exact p.upshot_andThen_congr hi same

theorem finds_seq {y : Value → Nat → Upshot} (hp : p.Finds g items depth i x)
    (hq : ∀ v j, x = .matched v j → q.Finds g items depth j (y v j)) :
    (seq p q).Finds g items depth i (x.andThen fun v j => (y v j).output fun w => .tuple [v, w]) :=
  finds_of_upshot (fun _ => nofun) fun hi => by
    rw [upshot_seq hi]
    exact hp.andThen_eq hi fun v j hv hj => by rw [(hq v j hv).upshot_eq hj]

theorem finds_seq_matched {v : Value} {j : Nat} {y : Upshot}
    (hp : p.Finds g items depth i (.matched v j)) (hq : q.Finds g items depth j y) :
    (seq p q).Finds g items depth i (y.output fun w => .tuple [v, w]) :=
  finds_seq (y := fun _ _ => y) hp fun _ _ h => by
    obtain ⟨rfl, rfl⟩ := Upshot.matched.inj h
    exact hq

theorem finds_seq_declined (hp : p.Finds g items depth i .declined) :
    (seq p q).Finds g items depth i .declined :=
  finds_seq (y := fun _ _ => .declined) hp nofun

theorem finds_seqBy {choose : Value → Except Fault Parser} {y : Value → Nat → Upshot}
    (hp : p.Finds g items depth i x)
    (hq : ∀ v j, x = .matched v j → ∃ q, choose v = .ok q ∧ q.Finds g items depth j (y v j)) :
    (seqBy p choose).Finds g items depth i
      (x.andThen fun v j => (y v j).output fun w => .tuple [v, w]) :=
  finds_of_upshot (fun _ => nofun) fun hi => by
    rw [upshot_seqBy hi]
    refine hp.andThen_eq hi fun v j hv hj => ?_
    obtain ⟨q, chosen, hq⟩ := hq v j hv
    rw [chosen, ← hq.upshot_eq hj]

/-- If the second part does not match, what it comes to is passed on. -/
theorem finds_seqBy_unmatched {choose : Value → Except Fault Parser} {v : Value} {j : Nat}
    (hp : p.Finds g items depth i (.matched v j)) (chosen : choose v = .ok q)
    (hq : q.Finds g items depth j x) (hx : ∀ w k, x ≠ .matched w k) :
    (seqBy p choose).Finds g items depth i x := by
  have found := finds_seqBy (y := fun _ _ => x) hp fun u k hu => by
    obtain ⟨rfl, rfl⟩ := Upshot.matched.inj hu
    exact ⟨q, chosen, hq⟩
  rwa [Upshot.andThen_matched, Upshot.output_of_unmatched _ hx] at found

/-- The upshots of listed parsers, each found for the entry that it is made of. -/
theorem forall₂_finds_map {α : Type} {f : α → Parser} {upshot : α → Upshot} {as : List α}
    (h : ∀ a ∈ as, (f a).Finds g items depth i (upshot a)) :
    List.Forall₂ (fun p x => Parser.Finds g items depth p i x) (as.map f) (as.map upshot) := by
  rw [List.forall₂_map_left_iff, List.forall₂_map_right_iff, List.forall₂_same]
  exact h

theorem finds_choice {ps : List Parser} {xs : List Upshot}
    (h : List.Forall₂ (fun p x => p.Finds g items depth i x) (p :: ps) xs) :
    (choice p ps).Finds g items depth i (Upshot.first xs) :=
  finds_of_upshot (fun _ => nofun) fun hi => by
    have same : (p :: ps).map (fun q => q.upshot g items depth i) = xs := by
      rw [← List.forall₂_eq_eq_eq, List.forall₂_map_left_iff]
      exact h.imp fun _ _ found => found.upshot_eq hi
    rw [upshot_choice p ps hi, same]

theorem finds_optional (hp : p.Finds g items depth i x) :
    (optional p).Finds g items depth i (x.orElse (.matched .nothing i)) :=
  finds_of_upshot (fun _ => nofun) fun hi => by rw [upshot_optional hi, hp.upshot_eq hi]

theorem finds_absent (hp : p.Finds g items depth i x) :
    (absent p).Finds g items depth i (x.negate i) :=
  finds_of_upshot (fun _ => nofun) fun hi => by rw [upshot_absent hi, hp.upshot_eq hi]

theorem finds_map {f : Value → Except Fault Value} (hp : p.Finds g items depth i x) :
    (map p f).Finds g items depth i (x.andThen fun v j => .ofExcept j (f v)) :=
  finds_of_upshot (fun _ => nofun) fun hi => by rw [upshot_map, hp.upshot_eq hi]

theorem finds_map_output {f : Value → Except Fault Value} {h : Value → Value}
    (hp : p.Finds g items depth i x) (hf : ∀ v j, x = .matched v j → f v = .ok (h v)) :
    (map p f).Finds g items depth i (x.output h) := by
  have found := finds_map (f := f) hp
  cases x
  case matched v j => rwa [Upshot.andThen_matched, hf v j rfl] at found
  all_goals exact found

theorem finds_map_matched {f : Value → Except Fault Value} {v w : Value} {j : Nat}
    (hp : p.Finds g items depth i (.matched v j)) (hf : f v = .ok w) :
    (map p f).Finds g items depth i (.matched w j) := by
  have found := finds_map (f := f) hp
  rwa [Upshot.andThen_matched, hf] at found

/-- What is no match is passed on. -/
theorem finds_map_unmatched {f : Value → Except Fault Value} (hp : p.Finds g items depth i x)
    (hx : ∀ v j, x ≠ .matched v j) : (map p f).Finds g items depth i x := by
  have found := finds_map (f := f) hp
  cases x
  case matched v j => exact absurd rfl (hx v j)
  all_goals exact found

theorem finds_map_declined {f : Value → Except Fault Value}
    (hp : p.Finds g items depth i .declined) : (map p f).Finds g items depth i .declined :=
  finds_map hp

/-- Of two in order, the output of the second. -/
theorem finds_second {y : Value → Nat → Upshot} (hp : p.Finds g items depth i x)
    (hq : ∀ v j, x = .matched v j → q.Finds g items depth j (y v j)) :
    (map (seq p q) (Value.part 1)).Finds g items depth i (x.andThen y) := by
  have second : ∀ v (z : Upshot), ((z.output fun w => .tuple [v, w]).andThen fun w j =>
      .ofExcept j (Value.part 1 w)) = z := by
    intro v z
    cases z <;> rfl
  have found := finds_map (f := Value.part 1) (finds_seq hp hq)
  rw [Upshot.andThen_andThen] at found
  simpa only [second] using found

theorem finds_void (hp : p.Finds g items depth i x) :
    (void p).Finds g items depth i (x.output fun _ => .nothing) :=
  finds_map_output hp fun _ _ _ => rfl

/-- The span covers what was read from where the parser was tried. -/
theorem finds_withSpan (hp : p.Finds g items depth i x) :
    (withSpan p).Finds g items depth i
      (x.andThen fun v j => .matched (.tuple [.span ((Span.point i).upTo j), v]) j) :=
  finds_of_upshot (fun _ => nofun) fun hi => by rw [upshot_withSpan hi, hp.upshot_eq hi]

theorem finds_lookingAt {y : Value → Nat → Upshot} (hp : p.Finds g items depth i x)
    (hq : ∀ v j, x = .matched v j → q.Finds g items depth j (y v j)) :
    (lookingAt p q).Finds g items depth i
      (x.andThen fun v j => (y v j).andThen fun _ _ => .matched v j) :=
  finds_of_upshot (fun _ => nofun) fun hi => by
    rw [upshot_lookingAt hi]
    exact hp.andThen_eq hi fun v j hv hj => by rw [(hq v j hv).upshot_eq hj]

/-- The error is made of the empty span where the parser was tried. -/
theorem finds_require {error : Span → Except Fault Value} {e : Value}
    (hp : p.Finds g items depth i x) (he : x = .declined → error (.point i) = .ok e) :
    (require p error).Finds g items depth i (x.orElse (.failed e)) :=
  finds_of_upshot (fun _ => nofun) fun hi => by
    have settles := hp (.point i) (Cursor.placed_point hi) rfl
    have upshot := hp.upshot_eq hi
    rw [upshot_require_of_stays error hi fun declined => by
      rw [settles.state, ← upshot, declined]
      rfl, upshot]
    cases x
    case declined => rw [he rfl]; rfl
    all_goals rfl

/-- The error is made of the span of what was read. -/
theorem finds_reject {error : Span → Value → Except Fault Value} {e : Value → Nat → Value}
    (hp : p.Finds g items depth i x)
    (he : ∀ v j, x = .matched v j → error ((Span.point i).upTo j) v = .ok (e v j)) :
    (reject p error).Finds g items depth i (x.andThen fun v j => .failed (e v j)) :=
  finds_of_upshot (fun _ => nofun) fun hi => by
    rw [upshot_reject error hi]
    exact hp.andThen_eq hi fun v j hv _ => by rw [he v j hv]; rfl

theorem finds_forbid {error : Span → Value → Except Fault Value} {e : Value → Nat → Value}
    (hp : p.Finds g items depth i x)
    (he : ∀ v j, x = .matched v j → error ((Span.point i).upTo j) v = .ok (e v j)) :
    (forbid p error).Finds g items depth i
      ((x.andThen fun v j => .failed (e v j)).orElse (.matched .nothing i)) := by
  have found := finds_void (finds_optional (finds_reject hp he))
  cases x <;> exact found

/-- A handle comes to the upshot of its definition, with one call more to go. -/
theorem finds_handle {n : Nat} (defined : g.definition? n = some p)
    (h : p.Finds g items depth i x) : (handle n).Finds g items (depth + 1) i x :=
  finds_of_upshot (fun _ => nofun) fun hi => by rw [upshot_handle defined hi, h.upshot_eq hi]

/-! ### Repetition -/

/-- From `i` on there are matches in a row up to `j`, with the outputs. -/
inductive Matches (f : Nat → Upshot) : Nat → List Value → Nat → Prop
  | nil (i : Nat) : Matches f i [] i
  | cons {i j k : Nat} {v : Value} {vs : List Value} (first : f i = .matched v j)
    (rest : Matches f j vs k) : Matches f i (v :: vs) k

variable {f : Nat → Upshot}

theorem settles_point (hf : ∀ n, p.Finds g items depth n (f n)) {n : Nat} (hn : n ≤ items.size) :
    (p.runWithin g items depth (.point n)).Settles (.point n) (f n) :=
  hf n (.point n) (Cursor.placed_point hn) rfl

/-- The matches of a streak are those of the upshots. -/
theorem matches_of_streak (hf : ∀ n, p.Finds g items depth n (f n)) {j : Nat}
    {pieces : List (Nat × Value)}
    (streak : Streak (fun n => p.runWithin g items depth (.point n)) i pieces j)
    (hi : i ≤ items.size) :
    Matches f i (pieces.map Prod.snd) j ∧ j ≤ items.size ∧
      ∀ piece ∈ pieces, piece.1 ≤ items.size := by
  induction streak with
  | nil i => exact ⟨.nil i, hi, nofun⟩
  | @cons i j v pieces first _ ih =>
    have matched := Run.upshot_eq_matched_iff.2 ⟨first, rfl⟩
    rw [(settles_point hf hi).upshot_eq] at matched
    obtain ⟨rest, size, within⟩ := ih (p.placed_runWithin g depth (Cursor.placed_point hi)).le_size
    exact ⟨.cons matched rest, size, List.forall_mem_cons.2 ⟨hi, within⟩⟩

/-- A repetition follows the matches of its body, up to the bound or to the first upshot that is no
match.  A non-match ends it, and there may be too few matches; anything else is then its own. -/
theorem exists_finds_times {b : Bounds} (hf : ∀ n, p.Finds g items depth n (f n))
    (moves : b.most = none → ∀ n v, f n ≠ .matched v n) (hi : i ≤ items.size) :
    ∃ vs j, Matches f i vs j ∧ j ≤ items.size ∧
      (b.most = some vs.length ∧ (times p b).Finds g items depth i (.matched (.list vs) j) ∨
        (∀ m, b.most = some m → vs.length < m) ∧ (∀ v k, f j ≠ .matched v k) ∧
          (times p b).Finds g items depth i
            ((f j).orElse (if vs.length < b.least then .declined else .matched (.list vs) j))) := by
  have hc : (Cursor.point i).Placed items := Cursor.placed_point hi
  obtain ⟨pieces, j, last, streak, stops, count, -, -, position⟩ := p.times_stops g depth b hc
  obtain ⟨chain, hj, within⟩ := matches_of_streak hf streak hi
  have room : ∀ m, b.most = some m → pieces.length + last.length ≤ m := fun m hm => by
    simpa [Bounds.budget, hm] using count
  have gives {x : Upshot} (hx : ((times p b).runWithin g items depth (.point i)).ending = x.ending)
      (stop : ∀ v k, x = .matched v k → j = k) : (times p b).Finds g items depth i x :=
    finds_of_upshot (fun _ => nofun) fun _ => by
      rw [upshot, Run.upshot_of_ending hx]
      cases x
      case matched v k => rw [position v hx, stop v k rfl]; rfl
      all_goals rfl
  refine ⟨pieces.map Prod.snd, j, chain, hj, ?_⟩
  rw [List.length_map]
  have final := settles_point hf hj
  generalize hending : ((times p b).runWithin g items depth (.point i)).ending = ending
    at stops gives
  cases stops with
  | full most => exact .inl ⟨most, gives rfl fun _ _ hv => (Upshot.matched.inj hv).2⟩
  | @stuck piece most mem stuck =>
    obtain ⟨⟨v, hv⟩, stays⟩ := stuck
    have matched := Run.upshot_eq_matched_iff.2 ⟨hv, stays⟩
    rw [(settles_point hf (within piece mem)).upshot_eq] at matched
    exact absurd matched (moves most _ _)
  | declined _ last =>
    have declined : f j = .declined := by
      rw [← final.upshot_eq, Run.upshot_of_ending last]
      rfl
    rw [declined]
    refine .inr ⟨room, (fun _ _ h => by cases h), gives ?_ ?_⟩
    · simp only [Upshot.orElse_declined, Bounds.conclude, List.length_reverse, List.length_map,
        List.reverse_reverse]
      split <;> rfl
    · intro v k hv
      rw [Upshot.orElse_declined] at hv
      split at hv
      · cases hv
      · exact (Upshot.matched.inj hv).2
  | broken _ unanswered =>
    have unmatched : f j ≠ .declined ∧ ∀ v k, f j ≠ .matched v k := by
      constructor
      · intro h
        obtain ⟨e, he⟩ := unanswered .notMatched (by rw [final.ending, h]; rfl)
        cases he
      · intro v k h
        obtain ⟨e, he⟩ := unanswered (.matched v) (by rw [final.ending, h]; rfl)
        cases he
    have own (y : Upshot) : (f j).orElse y = f j := by
      cases h : f j
      case declined => exact absurd h unmatched.1
      all_goals rfl
    refine .inr ⟨room, unmatched.2, ?_⟩
    rw [own]
    exact gives final.ending fun v k h => absurd h (unmatched.2 v k)

end Parser

end Backtrack
