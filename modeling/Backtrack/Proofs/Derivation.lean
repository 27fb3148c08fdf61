import Backtrack.Peg

/-!
# Derivations of parsing expressions

An evaluator with fuel computes what can be derived, so derivations can be followed by induction on
the fuel, through the calls of rules and the rounds of a repetition.

* `Peg.eval`: the evaluator; more fuel does not change a result (`Peg.eval_of_le`).
* `Peg.derives_of_eval`, `Peg.exists_eval`: it computes exactly the derivable outcomes, so there is
  at most one (`Peg.Derives.unique`).
* `Peg.eval_rest`: the next round of a repetition.
-/

namespace Backtrack

namespace Peg

/-- What an expression comes to at a position; `none` says that the fuel does not do. -/
def eval (rules : Nat → Option Peg) (items : Items) : Nat → Peg → Nat → Option (Option Nat)
  | 0, _, _ => none
  | _ + 1, empty, i => some (some i)
  | _ + 1, terminal accepts, i => some (if (items.get? i).any accepts then some (i + 1) else none)
  | n + 1, call k, i => (rules k).bind fun e => eval rules items n e i
  | n + 1, seq a b, i =>
    match eval rules items n a i with
    | some (some j) => eval rules items n b j
    | r => r
  | n + 1, alt a b, i =>
    match eval rules items n a i with
    | some none => eval rules items n b i
    | r => r
  | n + 1, star e, i =>
    match eval rules items n e i with
    | some (some j) => eval rules items n (star e) j
    | some none => some (some i)
    | none => none
  | n + 1, not e, i =>
    match eval rules items n e i with
    | some (some _) => some none
    | some none => some (some i)
    | none => none

variable {rules : Nat → Option Peg} {items : Items} {a b e : Peg} {n m i j : Nat}
  {o o' : Option Nat}

theorem eval_call_eq_some {k : Nat} :
    eval rules items (n + 1) (call k) i = some o ↔
      ∃ e, rules k = some e ∧ eval rules items n e i = some o :=
  Option.bind_eq_some_iff

theorem eval_seq_eq_some :
    eval rules items (n + 1) (seq a b) i = some o ↔
      (eval rules items n a i = some none ∧ o = none) ∨
        ∃ j, eval rules items n a i = some (some j) ∧ eval rules items n b j = some o := by
  rw [eval]
  rcases eval rules items n a i with _ | _ | j <;> simp [eq_comm]

theorem eval_alt_eq_some :
    eval rules items (n + 1) (alt a b) i = some o ↔
      (∃ j, eval rules items n a i = some (some j) ∧ o = some j) ∨
        eval rules items n a i = some none ∧ eval rules items n b i = some o := by
  rw [eval]
  rcases eval rules items n a i with _ | _ | j <;> simp [eq_comm]

theorem eval_star_eq_some :
    eval rules items (n + 1) (star e) i = some o ↔
      (eval rules items n e i = some none ∧ o = some i) ∨
        ∃ j, eval rules items n e i = some (some j) ∧ eval rules items n (star e) j = some o := by
  rw [eval]
  rcases eval rules items n e i with _ | _ | j <;> simp [eq_comm]

theorem eval_not_eq_some :
    eval rules items (n + 1) (not e) i = some o ↔
      (eval rules items n e i = some none ∧ o = some i) ∨
        ∃ j, eval rules items n e i = some (some j) ∧ o = none := by
  rw [eval]
  rcases eval rules items n e i with _ | _ | j <;> simp [eq_comm]

theorem eval_succ (h : eval rules items n e i = some o) :
    eval rules items (n + 1) e i = some o := by
  induction n generalizing e i o with
  | zero => cases h
  | succ n ih =>
    cases e with
    | empty => exact h
    | terminal accepts => exact h
    | call k =>
      obtain ⟨e, hk, he⟩ := eval_call_eq_some.1 h
      exact eval_call_eq_some.2 ⟨e, hk, ih he⟩
    | seq a b =>
      refine eval_seq_eq_some.2 ?_
      rcases eval_seq_eq_some.1 h with ⟨ha, ho⟩ | ⟨j, ha, hb⟩
      · exact .inl ⟨ih ha, ho⟩
      · exact .inr ⟨j, ih ha, ih hb⟩
    | alt a b =>
      refine eval_alt_eq_some.2 ?_
      rcases eval_alt_eq_some.1 h with ⟨j, ha, ho⟩ | ⟨ha, hb⟩
      · exact .inl ⟨j, ih ha, ho⟩
      · exact .inr ⟨ih ha, ih hb⟩
    | star e =>
      refine eval_star_eq_some.2 ?_
      rcases eval_star_eq_some.1 h with ⟨he, ho⟩ | ⟨j, he, hrest⟩
      · exact .inl ⟨ih he, ho⟩
      · exact .inr ⟨j, ih he, ih hrest⟩
    | not e =>
      refine eval_not_eq_some.2 ?_
      rcases eval_not_eq_some.1 h with ⟨he, ho⟩ | ⟨j, he, ho⟩
      · exact .inl ⟨ih he, ho⟩
      · exact .inr ⟨j, ih he, ho⟩

/-- More fuel does not change a result. -/
theorem eval_of_le (hnm : n ≤ m) (h : eval rules items n e i = some o) :
    eval rules items m e i = some o := by
  induction hnm with
  | refl => exact h
  | step _ ih => exact eval_succ ih

theorem eval_unique (h : eval rules items n e i = some o) (h' : eval rules items m e i = some o') :
    o = o' := by
  have hn := eval_of_le (Nat.le_max_left n m) h
  have hm := eval_of_le (Nat.le_max_right n m) h'
  exact Option.some.inj (hn.symm.trans hm)

theorem derives_of_eval (h : eval rules items n e i = some o) : Derives rules items e i o := by
  induction n generalizing e i o with
  | zero => cases h
  | succ n ih =>
    cases e with
    | empty =>
      cases h
      exact .empty
    | terminal accepts =>
      rw [eval] at h
      split at h
      · cases h
        exact .terminal ‹_›
      · cases h
        exact .terminal_fails ‹_›
    | call k =>
      obtain ⟨e, hk, he⟩ := eval_call_eq_some.1 h
      exact .call hk (ih he)
    | seq a b =>
      rcases eval_seq_eq_some.1 h with ⟨ha, rfl⟩ | ⟨j, ha, hb⟩
      · exact .seq_fails (ih ha)
      · exact .seq (ih ha) (ih hb)
    | alt a b =>
      rcases eval_alt_eq_some.1 h with ⟨j, ha, rfl⟩ | ⟨ha, hb⟩
      · exact .alt_first (ih ha)
      · exact .alt_second (ih ha) (ih hb)
    | star e =>
      rcases eval_star_eq_some.1 h with ⟨he, rfl⟩ | ⟨j, he, hrest⟩
      · exact .star_stops (ih he)
      · -- a repetition never fails, so the rest of it ended somewhere
        have rest := ih hrest
        cases o with
        | none => cases rest
        | some k => exact .star_goes_on (ih he) rest
    | not e =>
      rcases eval_not_eq_some.1 h with ⟨he, rfl⟩ | ⟨j, he, rfl⟩
      · exact .not (ih he)
      · exact .not_fails (ih he)

theorem exists_eval (h : Derives rules items e i o) : ∃ n, eval rules items n e i = some o := by
  induction h with
  | empty => exact ⟨1, rfl⟩
  | terminal h => exact ⟨1, by simp [eval, h]⟩
  | terminal_fails h => exact ⟨1, by simp [eval, h]⟩
  | call h _ body =>
    obtain ⟨n, hn⟩ := body
    exact ⟨n + 1, eval_call_eq_some.2 ⟨_, h, hn⟩⟩
  | seq _ _ first second =>
    obtain ⟨n, hn⟩ := first
    obtain ⟨m, hm⟩ := second
    have ha := eval_of_le (Nat.le_max_left n m) hn
    have hb := eval_of_le (Nat.le_max_right n m) hm
    exact ⟨max n m + 1, eval_seq_eq_some.2 (.inr ⟨_, ha, hb⟩)⟩
  | seq_fails _ first =>
    obtain ⟨n, hn⟩ := first
    exact ⟨n + 1, eval_seq_eq_some.2 (.inl ⟨hn, rfl⟩)⟩
  | alt_first _ first =>
    obtain ⟨n, hn⟩ := first
    exact ⟨n + 1, eval_alt_eq_some.2 (.inl ⟨_, hn, rfl⟩)⟩
  | alt_second _ _ first second =>
    obtain ⟨n, hn⟩ := first
    obtain ⟨m, hm⟩ := second
    have ha := eval_of_le (Nat.le_max_left n m) hn
    have hb := eval_of_le (Nat.le_max_right n m) hm
    exact ⟨max n m + 1, eval_alt_eq_some.2 (.inr ⟨ha, hb⟩)⟩
  | star_stops _ body =>
    obtain ⟨n, hn⟩ := body
    exact ⟨n + 1, eval_star_eq_some.2 (.inl ⟨hn, rfl⟩)⟩
  | star_goes_on _ _ body rest =>
    obtain ⟨n, hn⟩ := body
    obtain ⟨m, hm⟩ := rest
    have he := eval_of_le (Nat.le_max_left n m) hn
    have hrest := eval_of_le (Nat.le_max_right n m) hm
    exact ⟨max n m + 1, eval_star_eq_some.2 (.inr ⟨_, he, hrest⟩)⟩
  | not _ body =>
    obtain ⟨n, hn⟩ := body
    exact ⟨n + 1, eval_not_eq_some.2 (.inl ⟨hn, rfl⟩)⟩
  | not_fails _ body =>
    obtain ⟨n, hn⟩ := body
    exact ⟨n + 1, eval_not_eq_some.2 (.inr ⟨_, hn, rfl⟩)⟩

/-- At most one outcome can be derived. -/
theorem Derives.unique (h : Derives rules items e i o) (h' : Derives rules items e i o') :
    o = o' := by
  obtain ⟨n, hn⟩ := exists_eval h
  obtain ⟨m, hm⟩ := exists_eval h'
  exact eval_unique hn hm

/-- An expression never moves back, and never past the end of the input. -/
theorem Derives.le_and_le (h : Derives rules items e i o) :
    ∀ j ∈ o, i ≤ j ∧ j ≤ max i items.size := by
  induction h with
  | empty =>
    rintro _ ⟨⟩
    exact ⟨Nat.le_refl _, Nat.le_max_left _ _⟩
  | @terminal accepts i h =>
    rintro _ ⟨⟩
    have hi : i < items.size := Items.isSome_get?_iff.1 (Option.isSome_of_any h)
    omega
  | terminal_fails _ => exact fun _ h => nomatch h
  | call _ _ body => exact body
  | seq _ _ first second =>
    intro k hk
    have hj := first _ rfl
    have := second k hk
    omega
  | seq_fails _ _ => exact fun _ h => nomatch h
  | alt_first _ first => exact first
  | alt_second _ _ _ second => exact second
  | star_stops _ _ =>
    rintro _ ⟨⟩
    exact ⟨Nat.le_refl _, Nat.le_max_left _ _⟩
  | star_goes_on _ _ body rest =>
    intro k hk
    have hj := body _ rfl
    have := rest k hk
    omega
  | not _ _ =>
    rintro _ ⟨⟩
    exact ⟨Nat.le_refl _, Nat.le_max_left _ _⟩
  | not_fails _ _ => exact fun _ h => nomatch h

/-! ### Repetitions -/

variable {bs : Bounds} {count most : Nat}

theorem rest_of_lt_least (h : count < bs.least) :
    rest bs e count = seq e (rest bs e (count + 1)) := by
  have hleast : bs.least - count = bs.least - (count + 1) + 1 := by omega
  have hmax : max bs.least count = max bs.least (count + 1) := by omega
  rw [rest, rest, hleast, hmax, exactly]

theorem rest_unbounded (h : bs.least ≤ count) (hm : bs.most = none) : rest bs e count = star e := by
  rw [rest, Nat.sub_eq_zero_of_le h, exactly, hm]

theorem rest_bounded (h : bs.least ≤ count) (hm : bs.most = some most) :
    rest bs e count = upTo e (most - count) := by
  rw [rest, Nat.sub_eq_zero_of_le h, exactly, hm, Nat.max_eq_right h]

theorem rest_bounded_of_lt (h : bs.least ≤ count) (hm : bs.most = some most) (hlt : count < most) :
    rest bs e count = opt (seq e (rest bs e (count + 1))) := by
  have hsucc : most - count = most - (count + 1) + 1 := by omega
  rw [rest_bounded h hm, rest_bounded (Nat.le_succ_of_le h) hm, hsucc, upTo]

theorem rest_most (hm : bs.most = some most) : rest bs e most = empty := by
  rw [rest_bounded (bs.least_le_most most hm) hm, Nat.sub_self, upTo]

theorem not_derives_upTo_none : ¬Derives rules items (upTo e n) i none := by
  intro h
  cases n with
  | zero => cases h
  | succ n =>
    cases h with
    | alt_second _ second => cases second

theorem not_derives_rest_none (h : bs.least ≤ count) :
    ¬Derives rules items (rest bs e count) i none := by
  intro hd
  cases hm : bs.most with
  | none =>
    rw [rest_unbounded h hm] at hd
    cases hd
  | some most =>
    rw [rest_bounded h hm] at hd
    exact not_derives_upTo_none hd

/-- The next round of a repetition that is not full: it ends where the body fails, and else goes on
with one match more and less fuel. -/
theorem eval_rest (hlt : ∀ most ∈ bs.most, count < most)
    (h : eval rules items n (rest bs e count) i = some o) :
    ∃ m < n, (eval rules items m e i = some none ∧ o = if count < bs.least then none else some i) ∨
      ∃ j, eval rules items m e i = some (some j) ∧
        eval rules items m (rest bs e (count + 1)) j = some o := by
  cases n with
  | zero => cases h
  | succ n =>
    by_cases hcount : count < bs.least
    · rw [rest_of_lt_least hcount] at h
      rw [if_pos hcount]
      exact ⟨n, Nat.lt_succ_self n, eval_seq_eq_some.1 h⟩
    · have hle : bs.least ≤ count := Nat.le_of_not_lt hcount
      rw [if_neg hcount]
      cases hm : bs.most with
      | none =>
        rw [rest_unbounded hle hm] at h
        rw [rest_unbounded (Nat.le_succ_of_le hle) hm]
        exact ⟨n, Nat.lt_succ_self n, eval_star_eq_some.1 h⟩
      | some most =>
        -- an optional round is an alternative around a sequence, so it takes fuel for both
        rw [rest_bounded_of_lt hle hm (hlt most hm)] at h
        cases n with
        | zero => cases h
        | succ n =>
          refine ⟨n, by omega, ?_⟩
          rcases eval_alt_eq_some.1 h with ⟨k, hround, rfl⟩ | ⟨hround, hempty⟩
          · rcases eval_seq_eq_some.1 hround with ⟨-, hk⟩ | goes_on
            · cases hk
            · exact .inr goes_on
          · rcases eval_seq_eq_some.1 hround with ⟨hbody, -⟩ | ⟨j, -, hrest⟩
            · exact .inl ⟨hbody, (Option.some.inj hempty).symm⟩
            · exact absurd (derives_of_eval hrest) (not_derives_rest_none (Nat.le_succ_of_le hle))

/-- An unbounded repetition has no outcome where its body matches without moving. -/
theorem eval_rest_of_stuck (hm : bs.most = none) (hstuck : eval rules items m e i = some (some i)) :
    eval rules items n (rest bs e count) i = none := by
  induction n using Nat.strongRecOn generalizing count with
  | _ n ih =>
    rw [Option.eq_none_iff_forall_ne_some]
    intro o h
    rcases eval_rest (by simp [hm]) h with ⟨m', hm', ⟨hfail, -⟩ | ⟨j, hj, hrest⟩⟩
    · cases eval_unique hfail hstuck
    · obtain rfl : j = i := Option.some.inj (eval_unique hj hstuck)
      rw [ih m' hm'] at hrest
      cases hrest

end Peg

end Backtrack
