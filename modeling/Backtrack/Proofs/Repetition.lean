import Backtrack.Calls
import Backtrack.Proofs.Context

/-!
# What a repetition tries, and how it ends

A repetition tries its parser where the stream stands, then where the first match ended, and so on.
The tries are runs from positions: a fork sees no more of its stream than where it stands.

* `Streak`: matches in a row, each from where the last one ended.
* `Bounds.Stops`: the four ways in which the tries come to an end.
* `Observed.repeatFrom_stops`: the loop makes the tries of a streak and then stops in one of these
  ways.  The induction is on its budget; what was matched before is carried along.
* `Bounds.Repeats`, `repetition_follows_streak`: the law, one equivalence for each end.
-/

namespace Backtrack

namespace Cursor

/-- The cursor of a stream that is opened at a position. -/
def point (n : Nat) : Cursor := ⟨n, .point n⟩

@[simp] theorem position_point (n : Nat) : (point n).position = n := rfl

theorem placed_point {items : Items} {n : Nat} (h : n ≤ items.size) : (point n).Placed items :=
  ⟨rfl, h⟩

/-- A fork is the stream that is opened where its parent stands. -/
theorem Placed.fork_eq {items : Items} {c : Cursor} (h : c.Placed items) :
    c.fork = point c.position := by
  have hstop : c.span.stop = c.position := h.sound.symm
  rw [Cursor.fork, point, hstop]

end Cursor

/-- From position `i` on there are matches in a row, each from where the last one ended, up to `j`.
A piece is where a match began, and its output. -/
inductive Streak (trial : Nat → Run Cursor) : Nat → List (Nat × Value) → Nat → Prop
  | nil (i : Nat) : Streak trial i [] i
  | cons {i j : Nat} {v : Value} {pieces : List (Nat × Value)}
    (first : (trial i).ending = .answered (.matched v))
    (rest : Streak trial (trial i).state.position pieces j) : Streak trial i ((i, v) :: pieces) j

/-- The try at `n` matches and does not move on. -/
def Stuck (trial : Nat → Run Cursor) (n : Nat) : Prop :=
  (∃ v, (trial n).ending = .answered (.matched v)) ∧ (trial n).state.position = n

/-- How the tries of a repetition come to an end after the matches `pieces` up to `j`: where one
more try is made, if any, and what the loop ends in. -/
inductive Bounds.Stops (b : Bounds) (trial : Nat → Run Cursor) (pieces : List (Nat × Value))
    (j : Nat) : List Nat → Ending → Prop
  /-- No more tries are allowed. -/
  | full (most : b.most = some pieces.length) :
    b.Stops trial pieces j [] (.answered (.matched (.list (pieces.map Prod.snd))))
  /-- Any number of matches is allowed, and one did not move on. -/
  | stuck {piece : Nat × Value} (most : b.most = none) (mem : piece ∈ pieces)
    (stuck : Stuck trial piece.1) : b.Stops trial pieces j [] (.raised .endlessRepetition)
  /-- One more try declines. -/
  | declined (moved : b.most = none → ∀ piece ∈ pieces, ¬Stuck trial piece.1)
    (last : (trial j).ending = .answered .notMatched) :
    b.Stops trial pieces j [j] (.answered (b.conclude (pieces.map Prod.snd).reverse))
  /-- One more try neither matches nor declines. -/
  | broken (moved : b.most = none → ∀ piece ∈ pieces, ¬Stuck trial piece.1)
    (last : ∀ o, (trial j).ending = .answered o → ∃ e, o = .failed e) :
    b.Stops trial pieces j [j] (trial j).ending

namespace Streak

variable {trial : Nat → Run Cursor} {i j : Nat} {pieces : List (Nat × Value)}

theorem snoc (h : Streak trial i pieces j) {v : Value}
    (hv : (trial j).ending = .answered (.matched v)) :
    Streak trial i (pieces ++ [(j, v)]) (trial j).state.position := by
  induction h with
  | nil i => exact .cons hv (.nil _)
  | cons first _ ih => exact .cons first (ih hv)

theorem ending_eq (h : Streak trial i pieces j) {piece : Nat × Value} (hp : piece ∈ pieces) :
    (trial piece.1).ending = .answered (.matched piece.2) := by
  induction h with
  | nil i => cases hp
  | cons first _ ih =>
    rcases List.mem_cons.1 hp with rfl | hp
    · exact first
    · exact ih hp

end Streak

/-! ### The loop -/

namespace Observed

/-- What follows an outcome comes after what was done and logged before. -/
theorem andThen_of_answered {o : Observed} {x : Outcome} (h : o.run.ending = .answered x)
    (next : Outcome → Cursor → Observed) :
    o.andThen next =
      ⟨(next x o.run.state).run.after o.run.log, o.events ++ (next x o.run.state).events⟩ := by
  simp only [andThen, h, Run.andThen_of_answered h]

/-- The run of a body on a stream that is opened at a position. -/
abbrev trial (body : Cursor → Observed) (n : Nat) : Run Cursor := (body (.point n)).run

/-- After the matches `before`, which began at `i`, the run `o` makes those of `after` up to `j`,
and perhaps one more try there; it does nothing else, and then it stops. -/
structure Proceeds (o : Observed) (b : Bounds) (body : Cursor → Observed) (i : Nat)
    (before after : List (Nat × Value)) (j : Nat) (last : List Nat) : Prop where
  streak : Streak (trial body) i (before ++ after) j
  stops : b.Stops (trial body) (before ++ after) j last o.run.ending
  log : o.run.log = (after.map Prod.fst ++ last).flatMap fun n => (trial body n).log
  events : o.events = (after.map Prod.fst ++ last).flatMap fun n => (body (.point n)).events
  position : ∀ v, o.run.ending = .answered (.matched v) → o.run.state.position = j

section Loop

variable {items : Items} {b : Bounds} {body : Cursor → Observed} {i : Nat}
  {before : List (Nat × Value)} {c : Cursor}

theorem ending_attempt_point (hc : c.Placed items) :
    (attempt body c).run.ending = (trial body c.position).ending := by
  rw [run_attempt, ending_attempt, hc.fork_eq]

theorem log_attempt_point (hc : c.Placed items) :
    (attempt body c).run.log = (trial body c.position).log := by
  rw [run_attempt, log_attempt, hc.fork_eq]

theorem events_attempt_point (hc : c.Placed items) :
    (attempt body c).events = (body (.point c.position)).events := by
  rw [← hc.fork_eq]
  rfl

theorem position_attempt_point (hc : c.Placed items) {v : Value}
    (h : (trial body c.position).ending = .answered (.matched v)) :
    (attempt body c).run.state.position = (trial body c.position).state.position := by
  rw [trial, ← hc.fork_eq] at h ⊢
  rw [run_attempt, state_attempt_of_matched h, Cursor.position_merge]

theorem position_attempt_of_declined (h : (attempt body c).run.ending = .answered .notMatched) :
    (attempt body c).run.state.position = c.position := by
  rw [run_attempt] at h ⊢
  rw [state_attempt_of_declined h]

/-- One try more, which is the last. -/
theorem Proceeds.final (streak : Streak (trial body) i before c.position) (hc : c.Placed items)
    {o : Observed} (log : o.run.log = (attempt body c).run.log)
    (events : o.events = (attempt body c).events)
    (position : ∀ v, o.run.ending = .answered (.matched v) → o.run.state.position = c.position)
    (stops : b.Stops (trial body) before c.position [c.position] o.run.ending) :
    o.Proceeds b body i before [] c.position [c.position] where
  streak := by rwa [List.append_nil]
  stops := by rwa [List.append_nil]
  log := by rw [log, log_attempt_point hc]; simp
  events := by rw [events, events_attempt_point hc]; simp
  position := position

/-- A try that matches comes before the others. -/
theorem Proceeds.cons {v : Value} {after : List (Nat × Value)} {j : Nat} {last : List Nat}
    {o : Observed} (hc : c.Placed items)
    (rest : o.Proceeds b body i (before ++ [(c.position, v)]) after j last) :
    Proceeds ⟨o.run.after (attempt body c).run.log, (attempt body c).events ++ o.events⟩ b body i
      before ((c.position, v) :: after) j last where
  streak := by simpa using rest.streak
  stops := by simpa using rest.stops
  log := by rw [Run.log_after, rest.log, log_attempt_point hc]; rfl
  events := by rw [rest.events, events_attempt_point hc]; rfl
  position := rest.position

/-- After a match that does not move on, a loop without a bound stops at once. -/
theorem Proceeds.endless {n : Nat} {v : Value} {d : Cursor}
    (streak : Streak (trial body) i before n)
    (first : (trial body n).ending = .answered (.matched v)) (hmost : b.most = none)
    (hn : (trial body n).state.position = n) :
    (silent (.raise .endlessRepetition d)).Proceeds b body i (before ++ [(n, v)]) [] n [] where
  streak := by simpa [hn] using streak.snoc first
  stops := by
    have mem : (n, v) ∈ before ++ [(n, v)] := by simp
    rw [List.append_nil]
    exact .stuck hmost mem ⟨⟨v, first⟩, hn⟩
  log := rfl
  events := rfl
  position := nofun

/-- The loop stands at `c` after the matches `before`, which began at `i`, and may go on. -/
structure Ongoing (items : Items) (b : Bounds) (body : Cursor → Observed) (i : Nat) (budget : Nat)
    (before : List (Nat × Value)) (c : Cursor) : Prop where
  placed : c.Placed items
  streak : Streak (trial body) i before c.position
  most : ∀ m, b.most = some m → before.length + budget = m
  left : b.most = none → c.left items < budget
  moved : b.most = none → ∀ piece ∈ before, ¬Stuck (trial body) piece.1

/-- One match that the loop goes on from. -/
theorem Ongoing.next {budget : Nat} (h : Ongoing items b body i (budget + 1) before c)
    (hs : Steady items fun c => (body c).run) {v : Value}
    (hv : (trial body c.position).ending = .answered (.matched v))
    (advanced : b.most = none → (attempt body c).run.state.position ≠ c.position) :
    Ongoing items b body i budget (before ++ [(c.position, v)]) (attempt body c).run.state := by
  have position := position_attempt_point h.placed hv
  have later : c.Extends items (attempt body c).run.state := steady_attempt hs c h.placed
  refine ⟨later.placed, position ▸ h.streak.snoc hv, fun m hm => ?_, fun hb => ?_,
    fun hb piece hp => ?_⟩
  · have := h.most m hm
    simp only [List.length_append, List.length_singleton]
    omega
  · -- the match moved the stream, so fewer items are left than before
    have left := h.left hb
    have ne := advanced hb
    have le := later.le
    have size := later.placed.le_size
    simp only [Cursor.left] at left ⊢
    omega
  · rcases List.mem_append.1 hp with hp | hp
    · exact h.moved hb piece hp
    · obtain rfl := List.mem_singleton.1 hp
      exact fun stuck => advanced hb (position.trans stuck.2)

/-- Once the bound is reached, the loop ends with all outputs. -/
theorem Ongoing.full (h : Ongoing items b body i 0 before c) :
    (repeatFrom b (attempt body) 0 (before.map Prod.snd).reverse c).Proceeds b body i before []
      c.position [] := by
  cases hb : b.most with
  | none => exact absurd (h.left hb) (Nat.not_lt_zero _)
  | some m =>
    have count : before.length = m := h.most m hb
    have least := b.least_le_most m hb
    have concluded :
        b.conclude (before.map Prod.snd).reverse = .matched (.list (before.map Prod.snd)) := by
      simp only [Bounds.conclude, List.length_reverse, List.length_map, List.reverse_reverse]
      rw [if_neg (by omega)]
    refine ⟨by rw [List.append_nil]; exact h.streak, ?_, ?_, rfl, ?_⟩
    · rw [run_repeatFrom, Backtrack.repeatFrom, hb, concluded, List.append_nil]
      exact .full (by rw [hb, count])
    · simp [Backtrack.repeatFrom, hb]
    · simp [Backtrack.repeatFrom, hb]

/-- The loop makes the tries of a streak and then stops. -/
theorem Ongoing.proceeds {budget : Nat} (h : Ongoing items b body i budget before c)
    (hs : Steady items fun c => (body c).run) :
    ∃ after j last, after.length + last.length ≤ budget ∧
      (repeatFrom b (attempt body) budget (before.map Prod.snd).reverse c).Proceeds b body i before
        after j last := by
  induction budget generalizing before c with
  | zero => exact ⟨[], c.position, [], Nat.le_refl 0, h.full⟩
  | succ budget ih =>
    have hc := h.placed
    have ending : (attempt body c).run.ending = (trial body c.position).ending :=
      ending_attempt_point hc
    rw [repeatFrom]
    by_cases hx : ∃ x, (trial body c.position).ending = .answered x
    · obtain ⟨x, hx⟩ := hx
      rw [andThen_of_answered (ending.trans hx)]
      cases x with
      | matched v =>
        dsimp only
        split
        · rename_i hstuck
          rw [position_attempt_point hc hx] at hstuck
          obtain ⟨hmost, hn⟩ : b.most = none ∧
              (trial body c.position).state.position = c.position := by simpa using hstuck
          exact ⟨[(c.position, v)], c.position, [], by simp,
            .cons hc (.endless h.streak hx hmost hn)⟩
        · rename_i hmoved
          have advanced : b.most = none → (attempt body c).run.state.position ≠ c.position := by
            simpa using hmoved
          obtain ⟨after, j, last, count, rest⟩ := ih (h.next hs hx advanced)
          rw [List.map_append, List.reverse_append] at rest
          exact ⟨(c.position, v) :: after, j, last, by rw [List.length_cons]; omega, .cons hc rest⟩
      | notMatched =>
        refine ⟨[], c.position, [c.position], by simp, .final h.streak hc ?_ ?_ ?_ ?_⟩
        · simp [Run.answer]
        · simp [silent]
        · exact fun v _ => position_attempt_of_declined (ending.trans hx)
        · exact .declined h.moved hx
      | failed e =>
        refine ⟨[], c.position, [c.position], by simp, .final h.streak hc ?_ ?_ ?_ ?_⟩
        · simp [Run.answer]
        · simp [silent]
        · simp [Run.answer]
        · have broken : b.Stops (trial body) before c.position [c.position] _ :=
            .broken h.moved (by simp [hx])
          rwa [hx] at broken
    · have final : ∀ x, (attempt body c).run.ending ≠ .answered x :=
        fun x h => hx ⟨x, ending.symm.trans h⟩
      rw [andThen_of_not_answered final]
      refine ⟨[], c.position, [c.position], by simp, .final h.streak hc rfl rfl ?_ ?_⟩
      · exact fun v hv => absurd hv (final _)
      · rw [ending]
        exact .broken h.moved fun o ho => absurd ⟨o, ho⟩ hx

end Loop

end Observed

/-! ### What the repetition of a parser comes to -/

/-- What a repetition comes to that tries its parser at the positions `tried`, starting at `i`, and
finds the matches `pieces` up to `j`. -/
structure Bounds.Repeats (b : Bounds) (trial : Nat → Run Cursor) (i : Nat)
    (pieces : List (Nat × Value)) (j : Nat) (tried : List Nat) (ending : Ending) : Prop where
  /-- The matches follow one another. -/
  streak : Streak trial i pieces j
  /-- The tries are where they began, and perhaps one more where they ended, which does not
  match. -/
  tried_eq : tried = pieces.map Prod.fst ∨
    tried = pieces.map Prod.fst ++ [j] ∧ ∀ v, (trial j).ending ≠ .answered (.matched v)
  /-- There are no more tries than allowed. -/
  length_le : ∀ m, b.most = some m → tried.length ≤ m
  /-- A fault is that of a try, or tells of a match that did not move on, where any number of
  matches is allowed. -/
  raised_iff : ∀ f, ending = .raised f ↔
    (∃ n ∈ tried, (trial n).ending = .raised f) ∨
      f = .endlessRepetition ∧ b.most = none ∧ ∃ n ∈ tried, Stuck trial n
  /-- After such a match no try raises a fault. -/
  not_both : b.most = none → (∃ n ∈ tried, Stuck trial n) →
    ∀ n ∈ tried, ∀ f, (trial n).ending ≠ .raised f
  /-- A failure is that of a try. -/
  failed_iff : ∀ e, ending = .answered (.failed e) ↔
    ∃ n ∈ tried, (trial n).ending = .answered (.failed e)
  /-- It declines if the last try does after too few matches. -/
  notMatched_iff : ending = .answered .notMatched ↔
    tried = pieces.map Prod.fst ++ [j] ∧ (trial j).ending = .answered .notMatched ∧
      pieces.length < b.least
  /-- It matches with the outputs in order, if there are as many as allowed, or the last try
  declines after enough of them. -/
  matched_iff : ∀ w, ending = .answered (.matched w) ↔
    w = .list (pieces.map Prod.snd) ∧
      (b.most = some pieces.length ∨
        tried = pieces.map Prod.fst ++ [j] ∧ (trial j).ending = .answered .notMatched ∧
          b.least ≤ pieces.length)
  /-- It runs out of depth only if a try does. -/
  exhausted_iff : ending = .exhausted ↔ ∃ n ∈ tried, (trial n).ending = .exhausted

section Law

variable {b : Bounds} {trial : Nat → Run Cursor} {i j : Nat} {pieces : List (Nat × Value)}

/-- Only the last try can end otherwise than by a match. -/
theorem Streak.exists_tried_iff (h : Streak trial i pieces j) {P : Ending → Prop}
    (hP : ∀ v, ¬P (.answered (.matched v))) (last : List Nat) :
    (∃ n ∈ pieces.map Prod.fst ++ last, P (trial n).ending) ↔ ∃ n ∈ last, P (trial n).ending := by
  constructor
  · rintro ⟨n, hn, hp⟩
    rcases List.mem_append.1 hn with hn | hn
    · obtain ⟨piece, hpiece, rfl⟩ := List.mem_map.1 hn
      rw [h.ending_eq hpiece] at hp
      exact absurd hp (hP _)
    · exact ⟨n, hn, hp⟩
  · rintro ⟨n, hn, hp⟩
    exact ⟨n, List.mem_append_right _ hn, hp⟩

/-- If all matches moved on and the last try does not match, no try is stuck. -/
theorem not_exists_stuck (moved : ∀ piece ∈ pieces, ¬Stuck trial piece.1)
    (last : ∀ v, (trial j).ending ≠ .answered (.matched v)) :
    ¬∃ n ∈ pieces.map Prod.fst ++ [j], Stuck trial n := by
  rintro ⟨n, hn, stuck⟩
  rcases List.mem_append.1 hn with hn | hn
  · obtain ⟨piece, hpiece, rfl⟩ := List.mem_map.1 hn
    exact moved piece hpiece stuck
  · obtain rfl := List.mem_singleton.1 hn
    obtain ⟨v, hv⟩ := stuck.1
    exact last v hv

namespace Bounds

theorem repeats_full (streak : Streak trial i pieces j) (most : b.most = some pieces.length) :
    b.Repeats trial i pieces j (pieces.map Prod.fst ++ [])
      (.answered (.matched (.list (pieces.map Prod.snd)))) := by
  have least := b.least_le_most _ most
  refine ⟨streak, by simp, ?_, fun f => ?_, by simp [most], fun e => ?_, by simp, fun w => ?_, ?_⟩
  · simp [most]
  · rw [streak.exists_tried_iff (P := (· = .raised f)) (by simp)]
    simp [most]
  · rw [streak.exists_tried_iff (P := (· = .answered (.failed e))) (by simp)]
    simp
  · simp [most, eq_comm]
  · rw [streak.exists_tried_iff (P := (· = .exhausted)) (by simp)]
    simp

theorem repeats_stuck (streak : Streak trial i pieces j) (most : b.most = none)
    {piece : Nat × Value} (mem : piece ∈ pieces) (stuck : Stuck trial piece.1) :
    b.Repeats trial i pieces j (pieces.map Prod.fst ++ []) (.raised .endlessRepetition) := by
  have raised := fun f => streak.exists_tried_iff (P := (· = .raised f)) (by simp) []
  have mem_tried : piece.1 ∈ pieces.map Prod.fst ++ [] := by
    rw [List.append_nil]
    exact List.mem_map_of_mem mem
  refine ⟨streak, by simp, by simp [most], fun f => ?_, fun _ _ n hn f hf => ?_, fun e => ?_,
    by simp, by simp [most], ?_⟩
  · rw [raised f]
    constructor
    · intro hf
      obtain rfl : .endlessRepetition = f := by simpa using hf
      exact .inr ⟨rfl, most, piece.1, mem_tried, stuck⟩
    · rintro (⟨n, hn, -⟩ | ⟨rfl, -⟩)
      · cases hn
      · rfl
  · obtain ⟨n, hn, -⟩ := (raised f).1 ⟨n, hn, hf⟩
    cases hn
  · rw [streak.exists_tried_iff (P := (· = .answered (.failed e))) (by simp)]
    simp
  · rw [streak.exists_tried_iff (P := (· = .exhausted)) (by simp)]
    simp

section OneMore

variable (streak : Streak trial i pieces j)
  (moved : b.most = none → ∀ piece ∈ pieces, ¬Stuck trial piece.1)
  (room : ∀ m, b.most = some m → pieces.length < m)

include streak moved room

theorem repeats_declined (last : (trial j).ending = .answered .notMatched) :
    b.Repeats trial i pieces j (pieces.map Prod.fst ++ [j])
      (.answered (b.conclude (pieces.map Prod.snd).reverse)) := by
  have unmatched : ∀ v, (trial j).ending ≠ .answered (.matched v) := by simp [last]
  have notFull : b.most ≠ some pieces.length := fun h => Nat.lt_irrefl _ (room _ h)
  have concluded : b.conclude (pieces.map Prod.snd).reverse =
      if pieces.length < b.least then .notMatched else .matched (.list (pieces.map Prod.snd)) := by
    simp [Bounds.conclude]
  rw [concluded]
  refine ⟨streak, .inr ⟨rfl, unmatched⟩, by simpa [Nat.succ_le_iff] using room, fun f => ?_,
    fun hb stuck => ?_, fun e => ?_, ?_, fun w => ?_, ?_⟩
  · rw [streak.exists_tried_iff (P := (· = .raised f)) (by simp)]
    simp only [List.mem_singleton, exists_eq_left, last]
    constructor
    · intro hf
      split at hf <;> cases hf
    · rintro (hf | ⟨-, hb, stuck⟩)
      · cases hf
      · exact absurd stuck (not_exists_stuck (moved hb) unmatched)
  · exact absurd stuck (not_exists_stuck (moved hb) unmatched)
  · rw [streak.exists_tried_iff (P := (· = .answered (.failed e))) (by simp)]
    simp only [List.mem_singleton, exists_eq_left, last]
    split <;> simp
  · split <;> simp_all
  · split
    · simp [notFull]
      omega
    · simp [notFull, last, eq_comm]
      omega
  · rw [streak.exists_tried_iff (P := (· = .exhausted)) (by simp)]
    simp [last]

theorem repeats_broken (last : ∀ o, (trial j).ending = .answered o → ∃ e, o = .failed e) :
    b.Repeats trial i pieces j (pieces.map Prod.fst ++ [j]) (trial j).ending := by
  have unmatched : ∀ v, (trial j).ending ≠ .answered (.matched v) := by
    intro v hv
    obtain ⟨e, he⟩ := last _ hv
    cases he
  have undeclined : (trial j).ending ≠ .answered .notMatched := by
    intro hv
    obtain ⟨e, he⟩ := last _ hv
    cases he
  have notFull : b.most ≠ some pieces.length := fun h => Nat.lt_irrefl _ (room _ h)
  refine ⟨streak, .inr ⟨rfl, unmatched⟩, by simpa [Nat.succ_le_iff] using room, fun f => ?_,
    fun hb stuck => ?_,
    fun e => ?_, by simp [undeclined], by simp [undeclined, unmatched, notFull], ?_⟩
  · rw [streak.exists_tried_iff (P := (· = .raised f)) (by simp)]
    simp only [List.mem_singleton, exists_eq_left]
    constructor
    · exact .inl
    · rintro (hf | ⟨-, hb, stuck⟩)
      · exact hf
      · exact absurd stuck (not_exists_stuck (moved hb) unmatched)
  · exact absurd stuck (not_exists_stuck (moved hb) unmatched)
  · rw [streak.exists_tried_iff (P := (· = .answered (.failed e))) (by simp)]
    simp
  · rw [streak.exists_tried_iff (P := (· = .exhausted)) (by simp)]
    simp

end OneMore

/-- The tries of a streak that stops are those of the law. -/
theorem Stops.repeats {last : List Nat} {ending : Ending} (streak : Streak trial i pieces j)
    (h : b.Stops trial pieces j last ending)
    (count : ∀ m, b.most = some m → pieces.length + last.length ≤ m) :
    b.Repeats trial i pieces j (pieces.map Prod.fst ++ last) ending := by
  cases h with
  | full most => exact repeats_full streak most
  | stuck most mem stuck => exact repeats_stuck streak most mem stuck
  | declined moved hlast => exact repeats_declined streak moved count hlast
  | broken moved hlast => exact repeats_broken streak moved count hlast

end Bounds

end Law

section Parsers

variable (g : Grammar) (items : Items) (depth : Nat) (p : Parser) (b : Bounds)

/-- The loop of a repetition, observed, on a fork of the stream. -/
def Parser.timesLoop (c : Cursor) : Observed :=
  .repeatFrom b (.attempt (p.observeWithin g items depth)) (b.budget items c) [] c.fork

variable {items} {c : Cursor}

theorem Parser.runWithin_times (c : Cursor) :
    (Parser.times p b).runWithin g items depth c =
      attempt (fun tx => repeatFrom b (attempt (p.runWithin g items depth)) (b.budget items c) [] []
        tx) c := rfl

theorem Parser.run_timesLoop (c : Cursor) :
    (p.timesLoop g items depth b c).run =
      repeatFrom b (attempt (p.runWithin g items depth)) (b.budget items c) [] [] c.fork := by
  simp [timesLoop, p.run_observeWithin g depth]

theorem Parser.ending_times (c : Cursor) :
    ((Parser.times p b).runWithin g items depth c).ending =
      (p.timesLoop g items depth b c).run.ending := by
  rw [runWithin_times, ending_attempt, run_timesLoop]

/-- The loop of a repetition starts where the stream stands. -/
theorem Parser.timesLoop_proceeds (hc : c.Placed items) :
    ∃ pieces j last, pieces.length + last.length ≤ b.budget items c ∧
      (p.timesLoop g items depth b c).Proceeds b (p.observeWithin g items depth) c.position []
        pieces j last := by
  have steady : Steady items fun c => (p.observeWithin g items depth c).run := by
    simp only [p.run_observeWithin g depth]
    exact p.steady (g.steady_call items depth)
  have ongoing : Observed.Ongoing items b (p.observeWithin g items depth) c.position
      (b.budget items c) [] c.fork := by
    refine ⟨hc.fork, .nil _, fun m hm => ?_, fun hb => ?_, by simp⟩
    · simp [Bounds.budget, hm]
    · simp [Bounds.budget, hb, Cursor.left]
  exact ongoing.proceeds steady

/-- A repetition follows a streak of its parser.  If it matches, it leaves the stream where the
matches ended. -/
theorem Parser.times_stops (hc : c.Placed items) :
    let trial := fun n => p.runWithin g items depth (.point n)
    let r := (Parser.times p b).runWithin g items depth c
    ∃ pieces j last,
      Streak trial c.position pieces j ∧ b.Stops trial pieces j last r.ending ∧
      pieces.length + last.length ≤ b.budget items c ∧
      r.log = (pieces.map Prod.fst ++ last).flatMap (fun n => (trial n).log) ∧
      (p.timesLoop g items depth b c).events =
        (pieces.map Prod.fst ++ last).flatMap
          (fun n => (p.observeWithin g items depth (.point n)).events) ∧
      ∀ w, r.ending = .answered (.matched w) → r.state.position = j := by
  intro trial r
  obtain ⟨pieces, j, last, count, proceeds⟩ := p.timesLoop_proceeds g depth b hc
  have same : Observed.trial (p.observeWithin g items depth) = trial :=
    funext fun n => p.run_observeWithin g depth (.point n)
  have ending : r.ending = (p.timesLoop g items depth b c).run.ending :=
    p.ending_times g depth b c
  refine ⟨pieces, j, last, same ▸ proceeds.streak, ?_, count, ?_, proceeds.events, fun w hw => ?_⟩
  · rw [ending, ← same]
    exact proceeds.stops
  · rw [← same, ← proceeds.log, run_timesLoop]
    exact log_attempt _ _
  · have loop := proceeds.position w (ending.symm.trans hw)
    rw [run_timesLoop] at loop
    rw [ending, run_timesLoop] at hw
    show ((Parser.times p b).runWithin g items depth c).state.position = j
    rw [runWithin_times, state_attempt_of_matched hw, Cursor.position_merge, loop]

/-- The output of a repetition that matches is made of the pieces of a streak. -/
theorem Parser.streak_of_times_matched (hc : c.Placed items) {w : Value}
    (h : ((Parser.times p b).runWithin g items depth c).ending = .answered (.matched w)) :
    ∃ pieces, w = .list (pieces.map Prod.snd) ∧
      Streak (fun n => p.runWithin g items depth (.point n)) c.position pieces
        ((Parser.times p b).runWithin g items depth c).state.position := by
  obtain ⟨pieces, j, last, streak, stops, count, -, -, position⟩ :=
    p.times_stops g depth b hc
  have repeats := stops.repeats streak fun m hm => by simpa [Bounds.budget, hm] using count
  refine ⟨pieces, ((repeats.matched_iff w).1 h).1, ?_⟩
  rwa [position w h]

end Parsers

/-- An `a`. -/
def Parser.letterA : Parser := .literal (.ofText (.ofChars ['a'])) .nothing

/-- Without a bound, a match that does not move on breaks the repetition off, be there matches
enough or not. -/
example :
    ((Parser.times (.optional .letterA) (.atLeast 5)).runWithin .empty
      (.ofText (.ofChars ['a', 'b'])) 0 .start).ending = .raised .endlessRepetition := rfl

end Backtrack
