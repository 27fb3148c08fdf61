import Backtrack.Proofs.Progress

/-!
# Attempts are transactions

The combinators work in forks that are no streams of a tree: `attempt` merges its fork exactly if
the body matches, and `probe` never does.  On the streams of a tree the same is spelled out with the
operations: open a fork, run the body on it, commit the fork or not, and close it, or abort it if
the body did not return.  The two come to the same tree, but for the closed fork, which is not
forgotten.

* `Forks.leave`, `Forks.transact`: the operations spelled out.
* `Forks.Orderly.transact_attempt`, `Forks.Orderly.transact_probe`: they do what attempts and probes
  do.
* `Rule.runWith_attemptOn`: so does a rule that parses in a transaction.
* `closeFunction_eq_leave`: a caller's function is left in the same way.
-/

namespace Backtrack

namespace Forks

variable {items : Items} {s : Forks} {i : Nat} {b : Branch} {body : Cursor → Run Cursor}

/-- Leaves the fork with number `n` after a run on it: it is committed where `commits` says so and
closed, or aborted if the run did not end by an outcome. -/
def leave (items : Items) (commits : Outcome → Bool) (n : Nat) (r : Run Forks) : Run Forks :=
  match r.ending with
  | .answered o =>
    r.withState
      (r.state.performAll items (if commits o then [(.commit, n), (.close, n)] else [(.close, n)]))
  | _ => r.withState (r.state.perform items .abort n).2

/-- Runs a body on a fork of stream `i`, and leaves the fork. -/
def transact (items : Items) (commits : Outcome → Bool) (body : Cursor → Run Cursor) (i : Nat)
    (s : Forks) : Run Forks :=
  leave items commits s.branches.size
    ((s.perform items .fork i).2.runOn body s.branches.size)

theorem ending_leave (items : Items) (commits : Outcome → Bool) (n : Nat) (r : Run Forks) :
    (leave items commits n r).ending = r.ending := by
  unfold leave
  split <;> rfl

theorem log_leave (items : Items) (commits : Outcome → Bool) (n : Nat) (r : Run Forks) :
    (leave items commits n r).log = r.log := by
  unfold leave
  split <;> rfl

theorem set_push_size (s : Forks) (d d' : Branch) :
    (s.push d).set s.branches.size d' = s.push d' := by
  simp [push, set, Array.setIfInBounds, Array.set_push]

theorem set_push (h : s.get? i = some b) (d b' : Branch) :
    (s.push d).set i b' = (s.set i b').push d := by
  have hi := lt_size_of_get? h
  simp [push, set, Array.setIfInBounds, Array.set_push, hi, Nat.lt_succ_of_lt hi]

theorem get?_push_size (s : Forks) (d : Branch) : (s.push d).get? s.branches.size = some d := by
  rw [get?_push, if_pos rfl]

theorem get?_push_of_get? (h : s.get? i = some b) (d : Branch) : (s.push d).get? i = some b := by
  rw [get?_push, if_neg (Nat.ne_of_lt (lt_size_of_get? h)), h]

/-- The fork of stream `i` after the body ran on it. -/
def ranOn (b : Branch) (i : Nat) (body : Cursor → Run Cursor) : Branch :=
  { b.forkOf i with cursor := (body b.cursor.fork).state }

/-- The run of the body in a transaction, before the fork is left. -/
theorem runOn_fork (h : s.get? i = some b) (body : Cursor → Run Cursor) :
    (s.perform items .fork i).2.runOn body s.branches.size =
      (body b.cursor.fork).withState (s.push (ranOn b i body)) := by
  rw [perform_fork h, runOn, get?_push_size]
  dsimp only [Branch.cursor_forkOf]
  rw [set_push_size]
  rfl

theorem runOn_of_get? (h : s.get? i = some b) (body : Cursor → Run Cursor) :
    s.runOn body i =
      (body b.cursor).withState (s.set i { b with cursor := (body b.cursor).state }) := by
  rw [runOn, h]

/-! ### Leaving the newest fork -/

theorem commit_newest (s : Forks) (d : Branch) :
    (s.push d).perform items .commit s.branches.size =
      (.done, s.push { d with committed := true }) := by
  rw [perform_commit (get?_push_size s d), set_push_size]

/-- Closing a fork that is committed merges it into its parent. -/
theorem close_newest (h : s.get? i = some b) {d : Branch} (origin : d.origin = .forkOf i)
    (committed : d.committed = true) (le : b.cursor.span.start ≤ d.cursor.span.stop) :
    (s.push d).perform items .close s.branches.size =
      (.done, (s.set i { b with cursor := b.cursor.merge d.cursor }).push d) := by
  rw [perform_close (get?_push_size s d) origin committed (get?_push_of_get? h d) le, set_push h]

theorem close_newest_uncommitted (s : Forks) {d : Branch} (hd : d.committed = false) :
    (s.push d).perform items .close s.branches.size = (.done, s.push d) :=
  perform_close_uncommitted (get?_push_size s d) hd

theorem abort_newest (s : Forks) (d : Branch) :
    (s.push d).perform items .abort s.branches.size = (.done, s.push d) :=
  perform_abort (get?_push_size s d)

/-- A body that ran on a fork left a span that the parent can be merged with. -/
theorem Orderly.start_le_ranOn (hs : s.Orderly items) (steady : Steady items body)
    (h : s.get? i = some b) : b.cursor.span.start ≤ (ranOn b i body).cursor.span.stop :=
  have later := steady b.cursor.fork (hs.placed i b h).fork
  calc b.cursor.span.start ≤ b.cursor.span.stop := b.cursor.span.start_le_stop
    _ = (ranOn b i body).cursor.span.start := later.start_eq.symm
    _ ≤ (ranOn b i body).cursor.span.stop := Span.start_le_stop _

/-- Leaving a fork that is not committed changes nothing. -/
theorem leave_uncommitted {commits : Outcome → Bool} {r : Run Forks} {d : Branch}
    (hr : r.state = s.push d) (hd : d.committed = false)
    (hc : ∀ o, r.ending = .answered o → commits o = false) :
    leave items commits s.branches.size r = r := by
  have closed : (r.state.perform items .close s.branches.size).2 = r.state := by
    rw [hr, close_newest_uncommitted s hd]
  have aborted : (r.state.perform items .abort s.branches.size).2 = r.state := by
    rw [hr, abort_newest]
  unfold leave
  split
  · rename_i o ho
    rw [hc o ho]
    exact congrArg r.withState closed
  · exact congrArg r.withState aborted

/-- Leaving a fork that is to be committed merges it. -/
theorem leave_committed {commits : Outcome → Bool} {r : Run Forks} {d : Branch} {o : Outcome}
    (h : s.get? i = some b) (origin : d.origin = .forkOf i)
    (le : b.cursor.span.start ≤ d.cursor.span.stop) (hr : r.state = s.push d)
    (ho : r.ending = .answered o) (hc : commits o = true) :
    leave items commits s.branches.size r =
      r.withState ((s.set i { b with cursor := b.cursor.merge d.cursor }).push
        { d with committed := true }) := by
  unfold leave
  rw [ho]
  simp only [hc, if_true, hr]
  refine congrArg r.withState ?_
  show (((s.push d).perform items .commit _).2.perform items .close _).2 = _
  rw [commit_newest]
  exact congrArg Prod.snd (close_newest (d := { d with committed := true }) h origin rfl le)

/-! ### Transactions -/

/-- A transaction after whose run `commits` is off does what a probe does, and leaves the closed
fork behind. -/
theorem transact_uncommitted {commits : Outcome → Bool} (h : s.get? i = some b)
    (hc : ∀ o, (body b.cursor.fork).ending = .answered o → commits o = false) :
    ∃ closed, let r := s.runOn (probe body) i
      s.transact items commits body i = r.withState (r.state.push closed) := by
  refine ⟨ranOn b i body, ?_⟩
  dsimp only
  rw [transact, runOn_fork h, runOn_of_get? h, leave_uncommitted rfl rfl hc, state_probe,
    set_self h]
  rfl

/-- A transaction that is never committed does what a probe does. -/
theorem transact_probe (h : s.get? i = some b) (body : Cursor → Run Cursor) :
    ∃ closed, let r := s.runOn (probe body) i
      s.transact items (fun _ => false) body i = r.withState (r.state.push closed) :=
  transact_uncommitted h fun _ _ => rfl

/-- A transaction that is committed after a match does what an attempt does. -/
theorem Orderly.transact_attempt (hs : s.Orderly items) (steady : Steady items body)
    (h : s.get? i = some b) :
    ∃ closed, let r := s.runOn (attempt body) i
      s.transact items Outcome.isMatched body i = r.withState (r.state.push closed) := by
  by_cases hm : ∃ v, (body b.cursor.fork).ending = .answered (.matched v)
  · obtain ⟨v, hv⟩ := hm
    refine ⟨{ ranOn b i body with committed := true }, ?_⟩
    dsimp only
    rw [transact, runOn_fork h, runOn_of_get? h,
      leave_committed h rfl (hs.start_le_ranOn steady h) rfl hv rfl, state_attempt_of_matched hv,
      attempt, hv]
    rfl
  · have unmatched : ∀ o, (body b.cursor.fork).ending = .answered o → o.isMatched = false := by
      rintro (v | _ | e) ho
      · exact absurd ⟨v, ho⟩ hm
      · rfl
      · rfl
    have probes : s.runOn (attempt body) i = s.runOn (probe body) i := by
      rw [runOn_of_get? h, runOn_of_get? h, attempt_of_not_matched fun v hv => hm ⟨v, hv⟩]
    rw [probes]
    exact transact_uncommitted h unmatched

end Forks

section Rules

variable {items : Items} {call : Nat → Cursor → Run Cursor} {s : Forks} {i : Nat} {b : Branch}

/-- Going on in any case is going on, if the operation is not refused. -/
theorem Rule.runWith_perform {op : Operation} {i : Nat} {next : Rule}
    (h : ∀ f, (s.perform items op i).1 ≠ .refused f) :
    (Rule.perform op i next).runWith items call s =
      next.runWith items call (s.perform items op i).2 := by
  rw [Rule.perform, runWith]
  split
  · exact absurd ‹_› (h _)
  · rfl

/-- A rule that parses in a transaction goes on from what the transaction comes to. -/
theorem Rule.runWith_attemptOn (hs : s.Orderly items) (hcall : ∀ n, Steady items (call n))
    (h : s.get? i = some b) (parser : Parser) (next : Outcome → Rule) :
    (Rule.attemptOn parser i next).runWith items call s =
      (s.transact items Outcome.isMatched (parser.runWith items call) i).andThen fun o t =>
        (next o).runWith items call t := by
  have opened : (s.perform items .fork i).1 = .opened s.branches.size := by
    rw [Forks.perform_fork h]
  have le := hs.start_le_ranOn (Parser.steady hcall parser) h
  have ran : ((s.perform items .fork i).2.runOn (parser.runWith items call) s.branches.size).state =
      s.push (Forks.ranOn b i (parser.runWith items call)) := by
    rw [Forks.runOn_fork h]
    rfl
  rw [Rule.attemptOn, runWith, opened]
  dsimp only
  rw [runWith, Forks.transact]
  generalize (s.perform items .fork i).2.runOn (parser.runWith items call) s.branches.size = r at *
  generalize hd : Forks.ranOn b i (parser.runWith items call) = d at *
  have origin : d.origin = .forkOf i := hd ▸ rfl
  have uncommitted : d.committed = false := hd ▸ rfl
  cases he : r.ending with
  | exhausted =>
    dsimp only
    rw [Forks.leave_uncommitted ran uncommitted fun o ho => by simp [he] at ho,
      Run.andThen_of_exhausted he]
  | raised f =>
    dsimp only
    rw [Forks.leave_uncommitted ran uncommitted fun o ho => by simp [he] at ho,
      Run.andThen_of_raised he, ran, runWith_perform fun f hf => by simp [Forks.abort_newest] at hf,
      Forks.abort_newest, ← ran, runWith]
    simp [Run.raise, Run.after, ← he]
  | answered o =>
    have left := (Forks.ending_leave items Outcome.isMatched s.branches.size r).trans he
    dsimp only
    rw [Run.andThen_of_answered left, Forks.log_leave]
    refine congrArg (Run.after r.log) ?_
    cases hm : o.isMatched with
    | false =>
      rw [Forks.leave_uncommitted ran uncommitted fun o' ho => by
          rwa [← Ending.answered.inj (he.symm.trans ho)], if_neg (by simp), ran,
        runWith_perform fun f hf => by simp [Forks.close_newest_uncommitted s uncommitted] at hf,
        Forks.close_newest_uncommitted s uncommitted]
    | true =>
      have closed : (s.push { d with committed := true }).perform items .close s.branches.size =
          (.done, (s.set i { b with cursor := b.cursor.merge d.cursor }).push
            { d with committed := true }) := Forks.close_newest h origin rfl le
      rw [Forks.leave_committed h origin le ran he hm, if_pos rfl, ran,
        runWith_perform fun f hf => by simp [Forks.commit_newest] at hf, Forks.commit_newest,
        runWith_perform fun f hf => by simp [closed] at hf, closed]
      rfl

/-- A caller's function is left as a transaction is that is committed after a match, and merged into
the stream outside. -/
theorem closeFunction_eq_leave {r : Run Forks} {given : Branch} (h : r.state.get? 0 = some given)
    (origin : given.origin = .handedIn) (c : Cursor) :
    closeFunction c r =
      let left := Forks.leave items Outcome.isMatched 0 r
      left.withState ((left.state.get? 0).elim c (·.outer c)) := by
  -- closing a committed stream notes it as merged where it stands
  have merges {t : Forks} {d : Branch} (hd : t.get? 0 = some d) (ho : d.origin = .handedIn)
      (hc : d.committed = true) :
      ((t.perform items .close 0).2.get? 0).elim c (·.outer c) = c.merge d.cursor := by
    rw [Forks.perform_close_handedIn hd ho hc, Forks.get?_set_self hd]
    rfl
  unfold closeFunction Forks.leave
  rw [h]
  cases he : r.ending with
  | exhausted | raised f => simp [Forks.perform_abort h, h, Run.withState]
  | answered o =>
    refine congrArg r.withState ?_
    dsimp only [Run.state_withState]
    cases hm : o.isMatched with
    | true =>
      have marked : (r.state.perform items .commit 0).2 =
          r.state.set 0 { given with committed := true } := by rw [Forks.perform_commit h]
      have closed := merges (d := { given with committed := true })
        (Forks.get?_set_self h _) origin rfl
      rw [← marked] at closed
      exact closed.symm
    | false =>
      cases hc : given.committed with
      | true => exact (merges h origin hc).symm
      | false =>
        have closed : (r.state.performAll items [(.close, 0)]).get? 0 = some given := by
          rw [Forks.performAll_singleton, Forks.perform_close_uncommitted h hc, h]
        exact (congrArg (Option.elim · c (·.outer c)) closed).symm

end Rules

end Backtrack
