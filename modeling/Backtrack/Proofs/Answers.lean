import Backtrack.Parser.Build
import Backtrack.Proofs.Repetition
import Backtrack.Value.Parts

/-!
# Parsers that always answer

A parser answers if every run of it comes to an outcome, so that no fault is raised and no depth
runs out.  Whether it does depends on what its functions are given.  So a judgement on parsers keeps
track of three things: how many items lie behind the place where the parser is tried, how many a
match reads at least, and what its outputs look like.  There is one rule for each combinator.

* `Run.Answers`: the run comes to an outcome.
* `Parser.Answers`: the judgement.
* `Parser.answers_times`: an unbounded repetition answers if each match of its body reads an item.
* `Parser.answers_require`: the span that an error is made of starts where the parser was tried.
-/

namespace Backtrack

/-! ### Runs -/

/-- The run comes to an outcome: a match, whose output and end satisfy `P`, or a non-match, or an
error that is a diagnostic. -/
inductive Run.Answers (P : Value → Nat → Prop) (r : Run Cursor) : Prop
  | matched {v : Value} (ending : r.ending = .answered (.matched v)) (holds : P v r.state.position)
  | declined (ending : r.ending = .answered .notMatched)
  | failed {d : Diagnostic} (ending : r.ending = .answered (.failed (.diagnostic d)))

namespace Run.Answers

variable {P Q : Value → Nat → Prop} {r : Run Cursor} {c : Cursor} {body : Cursor → Run Cursor}

theorem mono (h : r.Answers P) (hPQ : ∀ v n, P v n → Q v n) : r.Answers Q := by
  cases h with
  | matched ending holds => exact .matched ending (hPQ _ _ holds)
  | declined ending => exact .declined ending
  | failed ending => exact .failed ending

theorem after (h : r.Answers P) (entries : List Entry) : (r.after entries).Answers P := by
  cases h with
  | matched ending holds => exact .matched ending holds
  | declined ending => exact .declined ending
  | failed ending => exact .failed ending

theorem attempt (h : (body c.fork).Answers P) : (attempt body c).Answers P := by
  have same := ending_attempt body c
  cases h with
  | matched ending holds =>
    refine .matched (same.trans ending) ?_
    rw [state_attempt_of_matched ending]
    exact holds
  | declined ending => exact .declined (same.trans ending)
  | failed ending => exact .failed (same.trans ending)

theorem probe (h : (body c.fork).Answers P) :
    (probe body c).Answers fun v n => n = c.position ∧ ∃ m, P v m := by
  cases h with
  | matched ending holds => exact .matched ending ⟨rfl, _, holds⟩
  | declined ending => exact .declined ending
  | failed ending => exact .failed ending

theorem andThen {next : Outcome → Cursor → Run Cursor} (h : r.Answers P)
    (hm : ∀ v, P v r.state.position → (next (.matched v) r.state).Answers Q)
    (hd : r.ending = .answered .notMatched → (next .notMatched r.state).Answers Q)
    (hf : ∀ d, (next (.failed (.diagnostic d)) r.state).Answers Q) : (r.andThen next).Answers Q := by
  cases h with
  | matched ending holds =>
    rw [Run.andThen_of_answered ending]
    exact (hm _ holds).after r.log
  | declined ending =>
    rw [Run.andThen_of_answered ending]
    exact (hd ending).after r.log
  | failed ending =>
    rw [Run.andThen_of_answered ending]
    exact (hf _).after r.log

theorem onMatch {next : Value → Cursor → Run Cursor} (h : r.Answers P)
    (hn : ∀ v, P v r.state.position → (next v r.state).Answers Q) : (r.onMatch next).Answers Q :=
  h.andThen hn (fun _ => .declined rfl) fun _ => .failed rfl

theorem orElse {next : Cursor → Run Cursor} (h : r.Answers P)
    (hn : r.ending = .answered .notMatched → (next r.state).Answers P) :
    (r.orElse next).Answers P :=
  h.andThen (fun _ hv => .matched rfl hv) hn fun _ => .failed rfl

theorem output {f : Value → Cursor → Except Fault Value} (h : r.Answers P)
    (hf : ∀ v, P v r.state.position → ∃ w, f v r.state = .ok w ∧ Q w r.state.position) :
    (r.output f).Answers Q := by
  refine h.onMatch fun v hv => ?_
  obtain ⟨w, hw, holds⟩ := hf v hv
  rw [hw]
  exact .matched rfl holds

end Run.Answers

theorem Cursor.position_of_readAll {items pattern : Items} {c d : Cursor} {k count : Nat}
    (h : c.readAll items pattern k count = .ok (some d)) : d.position = c.position + count := by
  induction count generalizing c k with
  | zero =>
    cases h
    rfl
  | succ count ih =>
    cases counted : items.isCountable with
    | false =>
      rw [readAll_of_uncountable counted] at h
      cases h
    | true =>
      rw [readAll_succ counted] at h
      split at h
      · rename_i v c' expected hread _
        split at h
        · have moved : c' = c.advance := by
            cases hv : items.get? c.position with
            | none => simp [read_of_none hv] at hread
            | some w => simpa [read_of_some hv, eq_comm] using congrArg Prod.snd hread
          rw [ih h, moved, position_advance]
          omega
        · cases h
      · cases h

/-! ### Shapes of outputs -/

namespace Value

/-- A pair of a value with the first property and one with the second. -/
def Pair (P Q : Value → Prop) (u : Value) : Prop := ∃ v w, u = tuple [v, w] ∧ P v ∧ Q w

/-- Nothing, or a value with the property. -/
def Maybe (P : Value → Prop) (v : Value) : Prop := v = nothing ∨ P v

/-- A list of values with the property, of a length within the bounds. -/
def Listed (b : Bounds) (P : Value → Prop) (u : Value) : Prop :=
  ∃ vs, u = list vs ∧ b.least ≤ vs.length ∧ (∀ m, b.most = some m → vs.length ≤ m) ∧ ∀ v ∈ vs, P v

theorem part_one_of_pair {P Q : Value → Prop} {u : Value} (h : u.Pair P Q) :
    ∃ w, u.part 1 = .ok w ∧ Q w := by
  obtain ⟨v, w, rfl, _, hw⟩ := h
  exact ⟨w, rfl, hw⟩

end Value

/-! ### Parsers -/

/-- From wherever at least `n` items lie behind, the parser comes to an outcome.  A match reads at
least `k` items, and its output satisfies `P`. -/
def Parser.Answers (g : Grammar) (items : Items) (depth n k : Nat) (P : Value → Prop) (p : Parser) :
    Prop :=
  ∀ c : Cursor, c.Placed items → n ≤ c.position →
    (p.runWithin g items depth c).Answers fun v m => c.position + k ≤ m ∧ P v

namespace Parser

variable {g : Grammar} {items : Items} {depth n k l : Nat} {P Q : Value → Prop} {p q : Parser}

theorem Answers.mono {n' k' : Nat} (h : p.Answers g items depth n k P) (hn : n ≤ n') (hk : k' ≤ k)
    (hPQ : ∀ v, P v → Q v) : p.Answers g items depth n' k' Q := fun c hc hc' =>
  (h c hc (Nat.le_trans hn hc')).mono fun _ _ hv =>
    ⟨Nat.le_trans (Nat.add_le_add_left hk _) hv.1, hPQ _ hv.2⟩

theorem Answers.weaken (h : p.Answers g items depth n k P) (hPQ : ∀ v, P v → Q v) :
    p.Answers g items depth n k Q := h.mono (Nat.le_refl n) (Nat.le_refl k) hPQ

/-- How much a match reads may be left open. -/
theorem Answers.uncounted (h : p.Answers g items depth n k P) : p.Answers g items depth n 0 P :=
  h.mono (Nat.le_refl n) (Nat.zero_le k) fun _ hv => hv

/-- A literal reads all of its items. -/
theorem answers_literal (counted : items.isCountable = true) (pattern : Items) (output : Value) :
    (literal pattern output).Answers g items depth n pattern.size (· = output) := by
  intro c hc _
  rw [runWithin, runWith]
  refine Run.Answers.attempt ?_
  unfold Cursor.readLiteral
  split
  · rename_i refused
    exact Bool.noConfusion (counted.symm.trans (Cursor.uncountable_of_readAll refused).2)
  · rename_i d hd
    exact .matched rfl ⟨Nat.le_of_eq (Cursor.position_of_readAll hd).symm, rfl⟩
  · exact .declined rfl

theorem answers_seq (hp : p.Answers g items depth n k P) (hq : q.Answers g items depth (n + k) l Q) :
    (seq p q).Answers g items depth n (k + l) (Value.Pair P Q) := by
  intro c hc hn
  rw [runWithin, runWith]
  refine Run.Answers.attempt ((hp c.fork hc.fork hn).onMatch fun v hv => ?_)
  have placed := (p.extends_runWithin g depth hc.fork).placed
  have position := c.position_fork
  refine (hq _ placed (by omega)).output fun w hw => ⟨_, rfl, by omega, v, w, rfl, hv.2, hw.2⟩

theorem answers_runFirst (ps : List Parser) (h : ∀ q ∈ ps, q.Answers g items depth n k P)
    {c : Cursor} (hc : c.Placed items) (hn : n ≤ c.position) :
    (runFirst items (g.call items depth) ps c).Answers fun v m => c.position + k ≤ m ∧ P v := by
  induction ps with
  | nil => exact .declined rfl
  | cons q ps ih =>
    have first := Run.Answers.attempt (h q List.mem_cons_self c.fork hc.fork hn)
    refine first.orElse fun declined => ?_
    rw [state_attempt_of_declined declined]
    exact ih fun q' hq' => h q' (List.mem_cons_of_mem q hq')

theorem answers_choice {ps : List Parser} (hp : p.Answers g items depth n k P)
    (hps : ∀ q ∈ ps, q.Answers g items depth n k P) :
    (choice p ps).Answers g items depth n k P := fun _ hc hn =>
  Run.Answers.attempt <|
    answers_runFirst (p :: ps) (List.forall_mem_cons.2 ⟨hp, hps⟩) hc.fork hn

/-- A choice among at least one alternative can be built, and answers if all of them do. -/
theorem exists_choiceOf (ps : List Parser) (h : ps ≠ []) :
    ∃ p, choiceOf ps = .ok p ∧ ∀ g items depth n k P,
      (∀ q ∈ ps, q.Answers g items depth n k P) → p.Answers g items depth n k P := by
  obtain ⟨p, ps, rfl⟩ := List.exists_cons_of_ne_nil h
  refine ⟨choice p ps, rfl, fun g items depth n k P answers => ?_⟩
  obtain ⟨first, others⟩ := List.forall_mem_cons.1 answers
  exact answers_choice first others

theorem answers_optional (hp : p.Answers g items depth n k P) :
    (optional p).Answers g items depth n 0 (Value.Maybe P) := by
  intro c hc hn
  rw [runWithin, runWith]
  have body := Run.Answers.attempt (hp c.fork hc.fork hn)
  have weaker := body.mono (Q := fun v m => c.position + 0 ≤ m ∧ Value.Maybe P v) fun v m hv =>
    ⟨Nat.le_trans (Nat.le_add_right ..) hv.1, .inr hv.2⟩
  refine weaker.orElse fun declined => ?_
  rw [state_attempt_of_declined declined]
  exact .matched rfl ⟨Nat.le_refl _, .inl rfl⟩

theorem answers_absent (hp : p.Answers g items depth n k P) :
    (absent p).Answers g items depth n 0 (· = .nothing) := by
  intro c hc hn
  rw [runWithin, runWith]
  refine (Run.Answers.probe (hp c.fork hc.fork hn)).andThen (fun v _ => ?_) (fun _ => ?_) fun d => ?_
  · exact .declined rfl
  · exact .matched rfl ⟨Nat.le_refl _, rfl⟩
  · exact .failed rfl

theorem answers_map {f : Value → Except Fault Value} (hp : p.Answers g items depth n k P)
    (hf : ∀ v, P v → ∃ w, f v = .ok w ∧ Q w) : (map p f).Answers g items depth n k Q := by
  intro c hc hn
  rw [runWithin, runWith]
  refine Run.Answers.attempt ((hp c.fork hc.fork hn).output fun v hv => ?_)
  obtain ⟨w, hw, holds⟩ := hf v hv.2
  exact ⟨w, hw, hv.1, holds⟩

theorem answers_void (hp : p.Answers g items depth n k P) :
    (void p).Answers g items depth n k (· = .nothing) :=
  answers_map hp fun _ _ => ⟨.nothing, rfl, rfl⟩

theorem answers_withSpan (hp : p.Answers g items depth n k P) :
    (withSpan p).Answers g items depth n k (Value.Pair (fun v => ∃ s, v = .span s) P) := by
  intro c hc hn
  rw [runWithin, runWith]
  refine Run.Answers.attempt ((hp c.fork hc.fork hn).output fun v hv => ?_)
  exact ⟨_, rfl, hv.1, _, v, rfl, ⟨_, rfl⟩, hv.2⟩

theorem answers_lookingAt (hp : p.Answers g items depth n k P)
    (hq : q.Answers g items depth (n + k) l Q) : (lookingAt p q).Answers g items depth n k P := by
  intro c hc hn
  rw [runWithin, runWith]
  refine Run.Answers.attempt ((hp c.fork hc.fork hn).onMatch fun v hv => ?_)
  have placed := (p.extends_runWithin g depth hc.fork).placed
  have position := c.position_fork
  refine (Run.Answers.probe (hq _ placed.fork ?_)).output fun w hw => ⟨v, rfl, ?_, hv.2⟩
  · rw [Cursor.position_fork]
    omega
  · exact hv.1

theorem answers_seqBy {choose : Value → Except Fault Parser} (hp : p.Answers g items depth n k P)
    (hq : ∀ v, P v → ∃ q, choose v = .ok q ∧ q.Answers g items depth (n + k) l Q) :
    (seqBy p choose).Answers g items depth n (k + l) (Value.Pair P Q) := by
  intro c hc hn
  rw [runWithin, runWith]
  refine Run.Answers.attempt ((hp c.fork hc.fork hn).onMatch fun v hv => ?_)
  obtain ⟨q, chosen, answers⟩ := hq v hv.2
  have placed := (p.extends_runWithin g depth hc.fork).placed
  have position := c.position_fork
  rw [chosen]
  exact (answers _ placed (by omega)).output fun w hw => ⟨_, rfl, by omega, v, w, rfl, hv.2, hw.2⟩

/-- The error is made of an empty span where the parser was tried, so as many items lie before that
span as lie behind the parser. -/
theorem answers_require {error : Span → Except Fault Value} (hp : p.Answers g items depth n k P)
    (herror : ∀ s : Span, n ≤ s.start → ∃ d, error s = .ok (.diagnostic d)) :
    (require p error).Answers g items depth n k P := by
  intro c hc hn
  rw [runWithin, runWith]
  refine Run.Answers.attempt
    ((hp c.fork hc.fork hn).andThen (fun v hv => ?_) (fun _ => ?_) fun d => ?_)
  · exact .matched rfl hv
  · have start := (p.extends_runWithin g depth hc.fork).start_eq
    obtain ⟨d, hd⟩ := herror (p.runWithin g items depth c.fork).state.span (by
      rw [start, Cursor.span_fork, Span.start_point, ← hc.sound]
      exact hn)
    simp only [hd]
    exact .failed rfl
  · exact .failed rfl

theorem answers_reject {error : Span → Value → Except Fault Value}
    (hp : p.Answers g items depth n k P)
    (herror : ∀ s v, P v → ∃ d, error s v = .ok (.diagnostic d)) :
    (reject p error).Answers g items depth n 0 fun _ => False := by
  intro c hc hn
  rw [runWithin, runWith]
  refine (Run.Answers.probe (P := fun _ _ => False) ?_).mono fun _ _ h => h.2.elim fun _ h => h.elim
  refine (hp c.fork hc.fork hn).andThen (fun v hv => ?_) (fun _ => ?_) fun d => ?_
  · obtain ⟨d, hd⟩ := herror (p.runWithin g items depth c.fork).state.span v hv.2
    simp only [hd]
    exact .failed rfl
  · exact .declined rfl
  · exact .failed rfl

theorem answers_forbid {error : Span → Value → Except Fault Value}
    (hp : p.Answers g items depth n k P)
    (herror : ∀ s v, P v → ∃ d, error s v = .ok (.diagnostic d)) :
    (forbid p error).Answers g items depth n 0 (· = .nothing) :=
  answers_void (answers_optional (answers_reject hp herror))

/-! ### Repetition -/

/-- The matches of a streak satisfy what the body's matches satisfy, and each of them reads `k`
items. -/
theorem Answers.of_streak (hp : p.Answers g items depth n k P) {i j : Nat}
    {pieces : List (Nat × Value)}
    (streak : Streak (fun m => p.runWithin g items depth (.point m)) i pieces j)
    (hi : i ≤ items.size) (hn : n ≤ i) :
    j ≤ items.size ∧ i ≤ j ∧ ∀ piece ∈ pieces, P piece.2 ∧
      piece.1 + k ≤ (p.runWithin g items depth (.point piece.1)).state.position := by
  induction streak with
  | nil i => exact ⟨hi, Nat.le_refl i, fun _ h => by cases h⟩
  | @cons i j v pieces first _ ih =>
    have placed := Cursor.placed_point hi
    have later := p.extends_runWithin g depth placed
    have moved := later.le
    obtain ⟨size, le, rest⟩ := ih later.placed.le_size (Nat.le_trans hn moved)
    refine ⟨size, Nat.le_trans moved le, List.forall_mem_cons.2 ⟨?_, rest⟩⟩
    cases hp (.point i) placed hn with
    | @matched w ending holds =>
      obtain rfl : v = w := by simpa using first.symm.trans ending
      exact ⟨holds.2, holds.1⟩
    | declined ending => cases first.symm.trans ending
    | failed ending => cases first.symm.trans ending

/-- A repetition answers, unless it is unbounded and its body may match without reading. -/
theorem answers_times {b : Bounds} (hp : p.Answers g items depth n k P)
    (hk : b.most = none → 0 < k) :
    (times p b).Answers g items depth n 0 (Value.Listed b P) := by
  intro c hc hn
  obtain ⟨pieces, j, last, streak, stops, count, -, -, position⟩ := p.times_stops g depth b hc
  obtain ⟨hj, le, each⟩ := hp.of_streak streak hc.le_size hn
  have outputs : ∀ v ∈ pieces.map Prod.snd, P v := by
    rintro v hv
    obtain ⟨piece, mem, rfl⟩ := List.mem_map.1 hv
    exact (each piece mem).1
  generalize hending : ((times p b).runWithin g items depth c).ending = ending at stops
  cases stops with
  | full most =>
    refine .matched hending ⟨?_, _, rfl, ?_, fun m hm => ?_, outputs⟩
    · rw [position _ hending]
      exact le
    · rw [List.length_map]
      exact b.least_le_most _ most
    · rw [List.length_map]
      exact Nat.le_of_eq (Option.some.inj (most.symm.trans hm))
  | @stuck piece most mem stuck =>
    have moves := (each _ mem).2
    have stays : (p.runWithin g items depth (.point piece.1)).state.position = piece.1 := stuck.2
    have := hk most
    omega
  | declined _ _ =>
    unfold Bounds.conclude at hending
    split at hending
    · exact .declined hending
    · rename_i enough
      rw [List.reverse_reverse] at hending
      refine .matched hending ⟨?_, _, rfl, by simpa using enough, fun m hm => ?_, outputs⟩
      · rw [position _ hending]
        exact le
      · have bound : b.budget items c = m := by rw [Bounds.budget, hm, Option.getD_some]
        rw [List.length_map]
        omega
  | broken _ broken =>
    cases hp (.point j) (Cursor.placed_point hj) (Nat.le_trans hn le) with
    | matched ending _ =>
      obtain ⟨e, he⟩ := broken _ ending
      cases he
    | declined ending =>
      obtain ⟨e, he⟩ := broken _ ending
      cases he
    | failed ending => exact .failed (hending.trans ending)

end Parser

end Backtrack
