import Backtrack.Script
import Backtrack.Proofs.Context

/-!
# Nested transactions refine a flat run

A script with nested transactions does to the root what its flat script does directly: the script
without every transaction that was aborted or closed with its flag off, all that was nested inside
them included.

* `Cursor.follow`: what readings come to on one stream.
* `Cursor.follow_fork`: they come to the same on a fork, and merging the fork gives the same stream.
* `Script.run_steps`: a script moves the innermost stream as its flat script does, and touches no
  other stream that is open.  The induction is on the structure of the script, so a commit becomes
  effective for the enclosing transaction exactly where that one is closed.
* `nested_script_refines_flat`: the two runs agree.
-/

namespace Backtrack

/-! ### Readings on one stream -/

/-- What a reading comes to from a cursor. -/
def Reading.run (g : Grammar) (items : Items) : Reading → Cursor → Run Cursor
  | next, c => c.readItem items
  | parse p, c => p.run g items c

/-- What readings come to from a cursor, one after the other, and where they lead. -/
def Cursor.follow (g : Grammar) (items : Items) : List Reading → Cursor → List Ending × Cursor
  | [], c => ([], c)
  | r :: rs, c =>
    ((r.run g items c).ending :: (follow g items rs (r.run g items c).state).1,
      (follow g items rs (r.run g items c).state).2)

variable {g : Grammar} {items : Items}

theorem Reading.steady (r : Reading) : Steady items (r.run g items) := by
  cases r with
  | next => exact steady_readItem
  | parse p => exact p.steady (g.steady_call items _)

theorem Reading.contextFree (r : Reading) : ContextFree items (r.run g items) := by
  cases r with
  | next => exact contextFree_readItem
  | parse p => exact p.contextFree (g.contextFree_call items _) (g.steady_call items _)

namespace Cursor

theorem follow_append (rs rs' : List Reading) (c : Cursor) :
    follow g items (rs ++ rs') c =
      ((follow g items rs c).1 ++ (follow g items rs' (follow g items rs c).2).1,
        (follow g items rs' (follow g items rs c).2).2) := by
  induction rs generalizing c with
  | nil => rfl
  | cons r rs ih => simp [follow, ih]

theorem extends_follow (rs : List Reading) {c : Cursor} (hc : c.Placed items) :
    c.Extends items (follow g items rs c).2 := by
  induction rs generalizing c with
  | nil => exact hc.extends_self
  | cons r rs ih =>
    have later := r.steady (g := g) c hc
    exact later.trans (ih later.placed)

theorem follow_congr (rs : List Reading) {c d : Cursor} (hc : c.Placed items)
    (hd : d.Placed items) (h : c.position = d.position) :
    (follow g items rs c).1 = (follow g items rs d).1 ∧
      (follow g items rs c).2.position = (follow g items rs d).2.position := by
  induction rs generalizing c d with
  | nil => exact ⟨rfl, h⟩
  | cons r rs ih =>
    obtain ⟨hending, hposition, -⟩ := r.contextFree (g := g) c d hc hd h
    obtain ⟨hrest, hlast⟩ := ih (r.steady c hc).placed (r.steady d hd).placed hposition
    exact ⟨by rw [follow, follow, hending, hrest], hlast⟩

/-- Readings come to the same on a fork, and merging the fork leads where they lead directly. -/
theorem follow_fork (rs : List Reading) {c : Cursor} (hc : c.Placed items) :
    (follow g items rs c.fork).1 = (follow g items rs c).1 ∧
      c.merge (follow g items rs c.fork).2 = (follow g items rs c).2 := by
  obtain ⟨hendings, hposition⟩ := follow_congr (g := g) rs hc.fork hc rfl
  exact ⟨hendings, merge_eq_of_extends (extends_follow rs hc)
    (extends_follow rs hc.fork).placed hposition⟩

end Cursor

/-! ### Masks -/

theorem length_run (steps : List Step) (s : Session) :
    (Session.run g items steps s).1.length = steps.length := by
  induction steps generalizing s with
  | nil => rfl
  | cons st steps ih => simp [Session.run, ih]

theorem run_append (steps steps' : List Step) (s : Session) :
    Session.run g items (steps ++ steps') s =
      ((Session.run g items steps s).1 ++
          (Session.run g items steps' (Session.run g items steps s).2).1,
        (Session.run g items steps' (Session.run g items steps s).2).2) := by
  induction steps generalizing s with
  | nil => rfl
  | cons st steps ih => simp [Session.run, ih]

theorem select_append {α : Type} {mask mask' : List Bool} {l l' : List α}
    (h : mask.length = l.length) :
    select (mask ++ mask') (l ++ l') = select mask l ++ select mask' l' := by
  induction mask generalizing l with
  | nil =>
    obtain rfl : l = [] := List.length_eq_zero_iff.1 h.symm
    simp [select]
  | cons b mask ih =>
    obtain ⟨a, l, rfl⟩ := List.exists_cons_of_length_eq_add_one h.symm
    have hl : mask.length = l.length := by simpa using h
    cases b <;> simp [select, ih hl]

theorem select_replicate_false {α : Type} (l : List α) :
    select (List.replicate l.length false) l = [] := by
  induction l with
  | nil => rfl
  | cons a l ih => simpa [List.replicate_succ, select] using ih

namespace Script

theorem length_kept (script : Script) : script.kept.length = script.steps.length := by
  induction script with
  | done => rfl
  | read r rest ih => simp [kept, steps, ih]
  | mark m rest ih => simp [kept, steps, ih]
  | transaction body aborted rest ihb ih =>
    simp only [kept, steps, List.length_cons, List.length_append, ih]
    split <;> simp [ihb]

/-- Selecting among the steps of a body or among their results. -/
theorem select_body {α : Type} (body : Script) (aborted : Bool) {l l' : List α} {mask : List Bool}
    (h : l.length = body.steps.length) :
    select ((if body.keeps aborted then body.kept else List.replicate body.steps.length false) ++
        mask) (l ++ l') =
      (if body.keeps aborted then select body.kept l else []) ++ select mask l' := by
  split
  · rw [select_append (body.length_kept.trans h.symm)]
  · rw [← h, select_append (by simp), select_replicate_false]

/-- The flat script is the script with the steps deleted that are not kept. -/
theorem select_steps (script : Script) :
    select script.kept script.steps = script.flat.map .read := by
  induction script with
  | done => rfl
  | read r rest ih => simp [kept, steps, flat, select, ih]
  | mark m rest ih => simp [kept, steps, flat, select, ih]
  | transaction body aborted rest ihb ih =>
    simp only [kept, steps, flat, select, select_body body aborted rfl, ih, List.map_append]
    split <;> simp [ihb]

end Script

/-! ### The simulation -/

namespace Session

variable {s : Forks} {top : Nat} {rest : List Nat} {b : Branch}

theorem step_read (h : s.get? top = some b) (r : Reading) :
    step g items ⟨s, top :: rest⟩ (.read r) =
      (some (r.run g items b.cursor).ending,
        ⟨s.set top { b with cursor := (r.run g items b.cursor).state }, top :: rest⟩) := by
  cases r with
  | next =>
    cases counted : items.isCountable with
    | false =>
      simp [step, perform, Forks.perform_next_of_uncountable h counted, Answer.ending?,
        Reading.run, Cursor.readItem_of_uncountable counted, Run.raise, Forks.set_self h]
    | true =>
      cases hv : items.get? b.cursor.position with
      | none =>
        simp [step, perform, Forks.perform_next h counted, hv, Cursor.read_of_none hv,
          Answer.ending?, Reading.run, Cursor.readItem_of_none counted hv, Run.answer]
      | some v =>
        simp [step, perform, Forks.perform_next h counted, hv, Cursor.read_of_some hv,
          Answer.ending?, Reading.run, Cursor.readItem_of_some counted hv, Run.answer]
  | parse p => simp [step, Forks.runOn, h, Reading.run]

theorem step_mark (h : s.get? top = some b) (m : Mark) :
    (step g items ⟨s, top :: rest⟩ (.mark m)).2 =
      ⟨s.set top { b with committed := m.flag }, top :: rest⟩ := by
  cases m with
  | commit => simp [step, perform, Mark.operation, Mark.flag, Forks.perform_commit h]
  | uncommit => simp [step, perform, Mark.operation, Mark.flag, Forks.perform_uncommit h]
  | matched v => simp [step, perform, Mark.operation, Mark.flag, Forks.perform_matched h]

theorem step_begin (h : s.get? top = some b) :
    (step g items ⟨s, top :: rest⟩ .begin).2 =
      ⟨s.push (b.forkOf top), s.branches.size :: top :: rest⟩ := by
  simp [step, perform, Forks.perform_fork h]

/-- Leaving a transaction merges it exactly if it is not aborted and its flag is on. -/
theorem step_leave {n : Nat} {d : Branch} (hd : s.get? n = some d) (ho : d.origin = .forkOf top)
    (hb : s.get? top = some b) (hle : b.cursor.span.start ≤ d.cursor.span.stop) (aborted : Bool) :
    (step g items ⟨s, n :: top :: rest⟩ (if aborted then .abort else .exit)).2 =
      ⟨if !aborted && d.committed then s.set top { b with cursor := b.cursor.merge d.cursor }
        else s, top :: rest⟩ := by
  cases aborted with
  | true => simp [step, perform, Forks.perform_abort hd]
  | false =>
    cases hc : d.committed with
    | true => simp [step, perform, Forks.perform_close hd ho hc hb hle]
    | false => simp [step, perform, Forks.perform_close_uncommitted hd hc]

end Session

/-- What a run of a script comes to, started on the streams `s` with `top` innermost, whose branch
is `b`: the same streams are open, `top` has moved as the flat script moves it, the streams that
were there and are not `top` are as they were, and the results that are kept are those of the flat
script. -/
structure Script.Follows (g : Grammar) (items : Items) (script : Script) (s : Forks) (top : Nat)
    (rest : List Nat) (b : Branch) (out : List (Option Ending) × Session) : Prop where
  results : select script.kept out.1 = (Cursor.follow g items script.flat b.cursor).1.map some
  stack : out.2.stack = top :: rest
  moved : out.2.forks.get? top = some { b with
    cursor := (Cursor.follow g items script.flat b.cursor).2
    committed := script.flag b.committed }
  others : ∀ i, i ≠ top → i < s.branches.size → out.2.forks.get? i = s.get? i

/-- A transaction that was opened on `top` and is about to be left: leaving it moves `top` as the
flat script of the transaction does, and the results that are kept are those of that script. -/
theorem Script.Follows.leave {body : Script} {s : Forks} {top : Nat} {rest : List Nat} {b : Branch}
    {out : List (Option Ending) × Session} (h : s.get? top = some b) (hb : b.cursor.Placed items)
    (hout : body.Follows g items (s.push (b.forkOf top)) s.branches.size
      (top :: rest) (b.forkOf top) out) (aborted : Bool) :
    ∃ t : Forks, (Session.step g items out.2 (if aborted then .abort else .exit)).2 =
        ⟨t, top :: rest⟩ ∧
      t.get? top = some { b with
        cursor := (Cursor.follow g items
          (if body.keeps aborted then body.flat else []) b.cursor).2 } ∧
      (∀ i, i ≠ top → i < s.branches.size → t.get? i = s.get? i) ∧
      (if body.keeps aborted then select body.kept out.1 else []) =
        (Cursor.follow g items
          (if body.keeps aborted then body.flat else []) b.cursor).1.map some := by
  obtain ⟨es, forks, stack⟩ := out
  obtain ⟨hresults, hstack, hmoved, hothers⟩ := hout
  dsimp only [Branch.cursor_forkOf, Branch.origin_forkOf, Branch.committed_forkOf]
    at hresults hstack hmoved hothers ⊢
  subst hstack
  have hlt := Forks.lt_size_of_get? h
  -- what the body left of the streams that were there before
  have before : ∀ i, i < s.branches.size → forks.get? i = s.get? i := by
    intro i hi
    rw [hothers i (Nat.ne_of_lt hi) (by simp; omega), Forks.get?_push, if_neg (Nat.ne_of_lt hi)]
  have htop : forks.get? top = some b := (before top hlt).trans h
  have later := Cursor.extends_follow (g := g) body.flat hb.fork
  have hle : b.cursor.span.start ≤
      (Cursor.follow g items body.flat b.cursor.fork).2.span.stop := by
    rw [← later.placed.sound]
    exact Nat.le_trans hb.start_le later.le
  obtain ⟨hendings, hmerge⟩ := Cursor.follow_fork (g := g) body.flat hb
  refine ⟨_, Session.step_leave hmoved rfl htop hle aborted, ?_, ?_, ?_⟩
  · dsimp only
    rw [Script.keeps]
    split
    · rw [Forks.get?_set_self htop, hmerge]
    · exact htop
  · intro i hi hlt
    dsimp only
    split
    · rw [Forks.get?_set htop, if_neg hi, before i hlt]
    · exact before i hlt
  · split
    · rw [hresults, hendings]
    · rfl

theorem Script.run_steps (script : Script) (s : Forks) (top : Nat) (rest : List Nat) (b : Branch)
    (h : s.get? top = some b) (hb : b.cursor.Placed items) :
    script.Follows g items s top rest b (Session.run g items script.steps ⟨s, top :: rest⟩) := by
  induction script generalizing s top rest b with
  | done => exact ⟨rfl, rfl, h, fun _ _ _ => rfl⟩
  | read r script ih =>
    have later := r.steady (g := g) b.cursor hb
    have next := ih _ top rest _ (Forks.get?_set_self h { b with
      cursor := (r.run g items b.cursor).state }) later.placed
    simp only [steps, Session.run, Session.step_read h r]
    refine ⟨?_, next.stack, next.moved, fun i hi hlt => ?_⟩
    · simp only [kept, select, flat, Cursor.follow, List.map_cons, next.results]
    · rw [next.others i hi (by simpa using hlt), Forks.get?_set h, if_neg hi]
  | mark m script ih =>
    have next := ih _ top rest _ (Forks.get?_set_self h { b with committed := m.flag }) hb
    simp only [steps, Session.run, Session.step_mark h m]
    refine ⟨next.results, next.stack, next.moved, fun i hi hlt => ?_⟩
    rw [next.others i hi (by simpa using hlt), Forks.get?_set h, if_neg hi]
  | transaction body aborted script ihb ih =>
    have hfork := Forks.get?_push s (b.forkOf top) s.branches.size
    rw [if_pos rfl] at hfork
    -- the body runs on the fork, with the streams that were open before below it
    have inner := ihb _ s.branches.size (top :: rest) _ hfork hb.fork
    obtain ⟨t, hleave, htop, hothers, hresults⟩ := inner.leave h hb aborted
    have next := ih t top rest _ htop (Cursor.extends_follow _ hb).placed
    simp only [steps, Session.run, Session.step_begin h, run_append, hleave]
    refine ⟨?_, next.stack, ?_, fun i hi hlt => ?_⟩
    · simp only [kept, select, flat]
      rw [select_body body aborted (length_run _ _), select, next.results, hresults,
        Cursor.follow_append, List.map_append]
    · rw [next.moved]
      simp only [flat, Cursor.follow_append, flag]
    · have hi' : t.get? i = some s.branches[i] :=
        (hothers i hi hlt).trans (Array.getElem?_eq_getElem hlt)
      exact (next.others i hi (Forks.lt_size_of_get? hi')).trans (hothers i hi hlt)

/-! ### Balanced steps -/

/-- Readings alone move the innermost stream as they do directly. -/
theorem run_readings (g : Grammar) (items : Items) (rs : List Reading) (s : Forks) (top : Nat)
    (rest : List Nat) (b : Branch) (h : s.get? top = some b) :
    (Session.run g items (rs.map .read) ⟨s, top :: rest⟩).1 =
        (Cursor.follow g items rs b.cursor).1.map some ∧
      (Session.run g items (rs.map .read) ⟨s, top :: rest⟩).2.forks.get? top =
        some { b with cursor := (Cursor.follow g items rs b.cursor).2 } := by
  induction rs generalizing s b with
  | nil => exact ⟨rfl, h⟩
  | cons r rs ih =>
    obtain ⟨hresults, hmoved⟩ := ih _ _ (Forks.get?_set_self h { b with
      cursor := (r.run g items b.cursor).state })
    rw [List.map_cons, Session.run, Session.step_read h r]
    exact ⟨by rw [Cursor.follow, List.map_cons, ← hresults], hmoved⟩

/-- Steps that close `depth` transactions more than they open are those of a script, followed by the
end or by the closing of the innermost transaction. -/
theorem exists_script_append (steps : List Step) (depth : Nat) (h : balanced depth steps = true) :
    ∃ (script : Script) (tail : List Step), steps = script.steps ++ tail ∧
      (depth = 0 ∧ tail = [] ∨ ∃ (outer : Nat) (aborted : Bool) (after : List Step),
        depth = outer + 1 ∧ tail = (if aborted then .abort else .exit) :: after ∧
          balanced outer after = true) := by
  match steps with
  | [] => exact ⟨.done, [], rfl, .inl ⟨by simpa [balanced] using h, rfl⟩⟩
  | .read r :: steps =>
    obtain ⟨script, tail, rfl, htail⟩ := exists_script_append steps depth h
    exact ⟨.read r script, tail, rfl, htail⟩
  | .mark m :: steps =>
    obtain ⟨script, tail, rfl, htail⟩ := exists_script_append steps depth h
    exact ⟨.mark m script, tail, rfl, htail⟩
  | .exit :: steps =>
    obtain ⟨hdepth, h⟩ : 0 < depth ∧ balanced (depth - 1) steps = true := by
      simpa [balanced] using h
    exact ⟨.done, _, rfl, .inr ⟨depth - 1, false, steps, by omega, rfl, h⟩⟩
  | .abort :: steps =>
    obtain ⟨hdepth, h⟩ : 0 < depth ∧ balanced (depth - 1) steps = true := by
      simpa [balanced] using h
    exact ⟨.done, _, rfl, .inr ⟨depth - 1, true, steps, by omega, rfl, h⟩⟩
  | .begin :: steps =>
    obtain ⟨body, tail, rfl, ⟨hdepth, -⟩ | ⟨outer, aborted, after, houter, rfl, hafter⟩⟩ :=
      exists_script_append steps (depth + 1) h
    · exact absurd hdepth (Nat.succ_ne_zero depth)
    · obtain rfl : outer = depth := by omega
      obtain ⟨script, tail, rfl, htail⟩ := exists_script_append after outer hafter
      exact ⟨.transaction body aborted script, tail, by simp [Script.steps], htail⟩
termination_by steps.length

theorem exists_script {steps : List Step} (h : balanced 0 steps = true) :
    ∃ script : Script, script.steps = steps := by
  obtain ⟨script, tail, rfl, ⟨-, rfl⟩ | ⟨outer, -, -, houter, -⟩⟩ := exists_script_append steps 0 h
  · exact ⟨script, (List.append_nil _).symm⟩
  · exact absurd houter (Nat.succ_ne_zero outer).symm

/-- Balanced steps on the stream of a source are those of a script, and the script does to the root
what its flat script does directly: the results of the readings that are kept are the same, and so
is the cursor of the root in the end. -/
theorem nested_script_refines_flat (g : Grammar) (items : Items) (steps : List Step)
    (h : balanced 0 steps = true) :
    ∃ script : Script, script.steps = steps ∧
      let nested := Session.run g items steps .start
      let direct := Session.run g items (script.flat.map .read) .start
      select script.kept steps = script.flat.map .read ∧
      select script.kept nested.1 = direct.1 ∧
      nested.2.stack = [0] ∧
      ∃ c, nested.2.root = some c ∧ direct.2.root = some c := by
  obtain ⟨script, rfl⟩ := exists_script h
  have hroot : Forks.opened.get? 0 = some { cursor := .start, origin := .source } := rfl
  have nested := script.run_steps (g := g) .opened 0 [] _ hroot (Cursor.placed_start items)
  obtain ⟨hresults, hmoved⟩ := run_readings g items script.flat .opened 0 [] _ hroot
  refine ⟨script, rfl, script.select_steps, ?_, nested.stack,
    (Cursor.follow g items script.flat .start).2, ?_, ?_⟩
  · exact nested.results.trans hresults.symm
  · rw [Session.root, Session.start, nested.moved]
    rfl
  · rw [Session.root, Session.start, hmoved]
    rfl

/-- An inner commit under an outer one, and a committed transaction that is aborted. -/
theorem nested_script_refines_flat_two_levels :
    let items : Items := .ofText (.ofChars ['a', 'b', 'c', 'd'])
    let steps : List Step := [.begin, .read .next, .begin, .read (.parse .item), .mark .commit,
      .exit, .mark (.matched .nothing), .mark .uncommit, .mark .commit, .exit, .begin,
      .read .next, .mark .commit, .abort, .read .next]
    balanced 0 steps = true ∧
    ∃ script : Script, script.steps = steps ∧
      let nested := Session.run .empty items steps .start
      let direct := Session.run .empty items (script.flat.map .read) .start
      select script.kept steps = script.flat.map .read ∧
      select script.kept nested.1 = direct.1 ∧
      nested.2.stack = [0] ∧
      ∃ c, nested.2.root = some c ∧ direct.2.root = some c :=
  ⟨rfl, nested_script_refines_flat .empty _ _ rfl⟩

end Backtrack
