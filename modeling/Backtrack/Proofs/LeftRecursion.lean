import Backtrack.Proofs.Endings
import Backtrack.Proofs.Simulation
import Mathlib.Data.Finset.Prod

/-!
# Left recursion alone does not terminate

A guard watches the calls of handles: it stops a run when a handle is called at a position where a
call of the same handle is still active.  Guarded runs terminate, and a run that the guard does not
stop is the run of the grammar itself, which terminates as well.

* `Grammar.guardedCall`, `Parser.runGuarded`: guarded runs.  The guard raises a mark, which may be
  any fault.
* `Grammar.Active`: the calls that may be active at one time.  There are at most as many of them as
  handles times positions, so a guarded run does not use up a depth greater than that.
* `guarded_runs_terminate_and_agree`: the law.
-/

namespace Backtrack

/-- Runs the definition of a handle, given what calling a handle within it means. -/
def Grammar.runDefinition (g : Grammar) (items : Items) (call : Nat → Cursor → Run Cursor)
    (handle : Nat) (c : Cursor) : Run Cursor :=
  match g.definition? handle with
  | none => .raise .undefinedHandle c
  | some p => attempt (fun tx => p.runWith items call tx) c

/-- Calls a handle unless a call of it at the same position is active; then the mark is raised. -/
def Grammar.guardedCall (g : Grammar) (items : Items) (mark : Fault) :
    Nat → List (Nat × Nat) → Nat → Cursor → Run Cursor
  | 0, _, _, c => .exhaust c
  | depth + 1, active, handle, c =>
    if (handle, c.position) ∈ active then .raise mark c
    else g.runDefinition items (g.guardedCall items mark depth ((handle, c.position) :: active))
      handle c

/-- Runs a parser under the guard. -/
def Parser.runGuarded (g : Grammar) (items : Items) (mark : Fault) (depth : Nat) (p : Parser)
    (c : Cursor) : Run Cursor :=
  p.runWith items (g.guardedCall items mark depth []) c

namespace Grammar

variable (g : Grammar) {items : Items} {mark : Fault}

theorem call_eq_runDefinition (depth : Nat) :
    g.call items (depth + 1) = g.runDefinition items (g.call items depth) := rfl

theorem steady_runDefinition {call : Nat → Cursor → Run Cursor} (h : ∀ n, Steady items (call n))
    (handle : Nat) : Steady items (g.runDefinition items call handle) := by
  intro c hc
  unfold runDefinition
  split
  · exact hc.extends_self
  · exact steady_attempt (Parser.steady h _) c hc

theorem steady_guardedCall (depth : Nat) (active : List (Nat × Nat)) (handle : Nat) :
    Steady items (g.guardedCall items mark depth active handle) := by
  induction depth generalizing active handle with
  | zero => exact fun c hc => hc.extends_self
  | succ depth ih =>
    intro c hc
    unfold guardedCall
    split
    · exact hc.extends_self
    · exact g.steady_runDefinition (ih _) handle c hc

/-! ### Guarded runs terminate -/

/-- Calls that may be active at one time under the guard: no handle twice at one position. -/
structure Active (g : Grammar) (items : Items) (active : List (Nat × Nat)) : Prop where
  nodup : active.Nodup
  handle_lt : ∀ call ∈ active, call.1 < g.definitions.size
  position_le : ∀ call ∈ active, call.2 ≤ items.size

variable {g} {active : List (Nat × Nat)}

theorem Active.nil : g.Active items [] := ⟨.nil, by simp, by simp⟩

theorem Active.cons (h : g.Active items active) {handle : Nat} {c : Cursor}
    (hhandle : handle < g.definitions.size) (hc : c.Placed items)
    (fresh : (handle, c.position) ∉ active) :
    g.Active items ((handle, c.position) :: active) := by
  refine ⟨h.nodup.cons fresh, ?_, ?_⟩
  · rintro call (_ | ⟨_, hcall⟩)
    · exact hhandle
    · exact h.handle_lt call hcall
  · rintro call (_ | ⟨_, hcall⟩)
    · exact hc.le_size
    · exact h.position_le call hcall

/-- There are at most as many active calls as handles times positions. -/
theorem Active.length_lt_depth (h : g.Active items active) : active.length < g.depth items := by
  have subset : active.toFinset ⊆
      Finset.range g.definitions.size ×ˢ Finset.range (items.size + 1) := by
    intro call hcall
    rw [List.mem_toFinset] at hcall
    rw [Finset.mem_product, Finset.mem_range, Finset.mem_range]
    exact ⟨h.handle_lt call hcall, Nat.lt_succ_of_le (h.position_le call hcall)⟩
  have le := Finset.card_le_card subset
  rw [List.toFinset_card_of_nodup h.nodup, Finset.card_product, Finset.card_range,
    Finset.card_range] at le
  exact Nat.lt_succ_of_le le

theorem lt_size_of_definition? {n : Nat} {p : Parser} (h : g.definition? n = some p) :
    n < g.definitions.size := by
  by_contra hn
  simp [definition?, Array.getElem?_eq_none (Nat.le_of_not_lt hn)] at h

end Grammar

/-- Everything but running out of depth. -/
theorem benign_settled : Benign (· ≠ .exhausted) :=
  ⟨fun _ => by simp, by simp, fun _ => by simp⟩

/-- Without callers' functions, parsers terminate if calls of the handles in them do. -/
theorem Parser.ends_settled {items : Items} {call : Nat → Cursor → Run Cursor} (p : Parser)
    (hp : ∀ rule, ¬p.Contains (.custom rule)) (hsteady : ∀ n, Steady items (call n))
    (hcall : ∀ n, p.Contains (.handle n) → EndsIn items (· ≠ .exhausted) (call n)) :
    EndsIn items (· ≠ .exhausted) (p.runWith items call) := by
  refine p.ends_in benign_settled hsteady fun q hq => ?_
  cases q with
  | handle n => exact hcall n hq
  | custom rule => exact absurd hq (hp rule)
  | require _ _ | reject _ _ => exact fun e => by simp
  | _ => trivial

/-- A guarded call terminates if the depth makes up for the calls that are not active yet. -/
theorem Grammar.ends_guardedCall {g : Grammar} {items : Items}
    (hg : ∀ rule, ¬g.Contains (.custom rule)) (mark : Fault) {depth : Nat}
    {active : List (Nat × Nat)} (ha : g.Active items active)
    (hdepth : g.depth items ≤ active.length + depth) (handle : Nat) :
    EndsIn items (· ≠ .exhausted) (g.guardedCall items mark depth active handle) := by
  induction depth generalizing active handle with
  | zero => exact absurd ha.length_lt_depth (Nat.not_lt.2 hdepth)
  | succ depth ih =>
    intro c hc
    unfold guardedCall
    split
    · exact benign_settled.raised mark
    · rename_i fresh
      unfold runDefinition
      split
      · exact benign_settled.raised _
      · -- one more call is active, and one less is left to the depth
        rename_i p hp
        have active' := ha.cons (lt_size_of_definition? hp) hc fresh
        have hdepth' : g.depth items ≤ ((handle, c.position) :: active).length + depth := by
          simp only [List.length_cons]
          omega
        refine EndsIn.attempt (p.ends_settled (fun rule hr => hg rule ⟨handle, p, hp, hr⟩)
          (g.steady_guardedCall depth _) fun n _ => ih active' hdepth' n) c hc

/-! ### Where the guard does not stop them they agree -/

/-- Runs over one source, compared in everything; only that the first one has the mark does not
count. -/
def Comparison.unmarked (items : Items) (mark : Fault) : Comparison where
  items := items
  items' := items
  view := some
  rules := False
  ends := fun e => e ≠ .raised mark
  ends_answered := fun _ => by simp
  ends_raised := nofun

section Agreement

open Comparison

variable {g : Grammar} {items : Items} {mark : Fault}

/-- If calls agree, so do definitions. -/
theorem Grammar.agrees_runDefinition (hg : ∀ rule, ¬g.Contains (.custom rule))
    {call call' : Nat → Cursor → Run Cursor} (hsteady : ∀ n, Steady items (call n))
    (h : ∀ n c, (unmarked items mark).Shares c →
      (unmarked items mark).Agrees (call n c) fun _ => call' n c)
    (handle : Nat) {c : Cursor} (hc : (unmarked items mark).Shares c) :
    (unmarked items mark).Agrees (g.runDefinition items call handle c) fun _ =>
      g.runDefinition items call' handle c := by
  unfold runDefinition
  split
  · exact agrees_of_eq rfl
  · rename_i p hp
    exact agrees_attempt (p.agrees (k := unmarked items mark) h hsteady
      (fun rule hr => hg rule ⟨handle, p, hp, hr⟩) c.fork hc.fork)

/-- A guarded call that is not stopped does as the call itself. -/
theorem Grammar.agrees_call_of_guarded (hg : ∀ rule, ¬g.Contains (.custom rule)) (depth : Nat)
    (active : List (Nat × Nat)) (handle : Nat) (c : Cursor)
    (hc : (unmarked items mark).Shares c) :
    (unmarked items mark).Agrees (g.guardedCall items mark depth active handle c) fun _ =>
      g.call items depth handle c := by
  induction depth generalizing active handle c with
  | zero => exact agrees_of_eq rfl
  | succ depth ih =>
    unfold guardedCall
    split
    · exact fun hends => absurd rfl hends
    · rw [call_eq_runDefinition]
      exact agrees_runDefinition hg (g.steady_guardedCall depth _) (ih _) handle hc

/-- A guarded call that is not stopped does the same whatever the mark. -/
theorem Grammar.agrees_guardedCall (hg : ∀ rule, ¬g.Contains (.custom rule)) (mark' : Fault)
    (depth : Nat) (active : List (Nat × Nat)) (handle : Nat) (c : Cursor)
    (hc : (unmarked items mark).Shares c) :
    (unmarked items mark).Agrees (g.guardedCall items mark depth active handle c) fun _ =>
      g.guardedCall items mark' depth active handle c := by
  induction depth generalizing active handle c with
  | zero => exact agrees_of_eq rfl
  | succ depth ih =>
    unfold guardedCall
    split
    · exact fun hends => absurd rfl hends
    · exact agrees_runDefinition hg (g.steady_guardedCall depth _) (ih _) handle hc

/-- What agrees with guarded calls that are not stopped gives the same runs of a parser. -/
theorem Parser.runGuarded_eq {depth : Nat} {call' : Nat → Cursor → Run Cursor}
    (h : ∀ n c, (unmarked items mark).Shares c →
      (unmarked items mark).Agrees (g.guardedCall items mark depth [] n c) fun _ => call' n c)
    {p : Parser} (hp : ∀ rule, ¬p.Contains (.custom rule)) {c : Cursor} (hc : c.Placed items)
    (hends : (p.runGuarded g items mark depth c).ending ≠ .raised mark) :
    p.runWith items call' c = p.runGuarded g items mark depth c := by
  obtain ⟨_, alike⟩ := p.agrees (k := unmarked items mark) h (g.steady_guardedCall depth [])
    (fun rule hr => hp rule hr) c (shares_of_eq rfl hc) hends
  exact (alike _ (Nat.le_refl _)).eq

end Agreement

/-- For parsers and grammars without callers' functions on streams: a guarded run terminates, and if
it does not end with the mark, then it is the run of the parser itself, which therefore terminates
as well; so is the guarded run with any other mark.  A parser without handles terminates in any
case.  The depth of `Parser.run` is great enough for all that. -/
theorem guarded_runs_terminate_and_agree (g : Grammar) (p : Parser)
    (hg : ∀ rule, ¬g.Contains (.custom rule)) (hp : ∀ rule, ¬p.Contains (.custom rule))
    {items : Items} {c : Cursor} (hc : c.Placed items) :
    (∀ mark depth, g.depth items ≤ depth →
      let r := p.runGuarded g items mark depth c
      r.ending ≠ .exhausted ∧
        (r.ending ≠ .raised mark →
          (∀ d ≥ depth, p.runWithin g items d c = r) ∧
            ∀ mark', p.runGuarded g items mark' depth c = r)) ∧
      ((∀ n, ¬p.Contains (.handle n)) → ∀ d, (p.runWithin g items d c).ending ≠ .exhausted) := by
  refine ⟨fun mark depth hdepth => ?_, fun hn d => ?_⟩
  · intro r
    have ends : r.ending ≠ .exhausted := p.ends_settled hp (g.steady_guardedCall depth [])
      (fun n _ => Grammar.ends_guardedCall hg mark .nil (by simpa using hdepth) n) c hc
    refine ⟨ends, fun hends => ⟨fun d hd => ?_, fun mark' => ?_⟩⟩
    · have same : p.runWithin g items depth c = r :=
        Parser.runGuarded_eq (g.agrees_call_of_guarded hg depth []) hp hc hends
      rw [← same] at ends ⊢
      exact Grammar.runWithin_of_le hd ends
    · exact Parser.runGuarded_eq (g.agrees_guardedCall hg mark' depth []) hp hc hends
  · exact p.ends_settled hp (g.steady_call items d) (fun n h => absurd h (hn n)) c hc

/-- Its handle stands for one pair of parentheses around any number of such pairs. -/
def Grammar.parentheses : Grammar :=
  ⟨#[some (.seq (.literal (.ofText (.ofChars ['('])) .nothing)
    (.seq (.times (.handle 0) (.atLeast 0)) (.literal (.ofText (.ofChars [')'])) .nothing)))]⟩

/-- A pair around two pairs. -/
def Items.parentheses : Items := .ofText (.ofChars ['(', '(', ')', '(', ')', ')'])

/-- The handle calls itself, but behind a parenthesis; the guard lets the run pass. -/
theorem guarded_runs_terminate_and_agree_parentheses :
    let r := (Parser.handle 0).runGuarded .parentheses .parentheses (.caller "left recursion") 8
      .start
    ((∀ rule, ¬Grammar.parentheses.Contains (.custom rule)) ∧
        (∀ rule, ¬(Parser.handle 0).Contains (.custom rule)) ∧ Cursor.start.Placed .parentheses ∧
        Grammar.parentheses.depth .parentheses ≤ 8) ∧
      r.ending ≠ .exhausted ∧ r.ending ≠ .raised (.caller "left recursion") ∧
        r.state.position = 6 ∧
        ∀ d ≥ 8, (Parser.handle 0).runWithin .parentheses .parentheses d .start = r := by
  intro r
  have hg : ∀ rule, ¬Grammar.parentheses.Contains (.custom rule) := by
    rintro rule ⟨_ | n, p, hp, hr⟩
    · cases hp
      cases hr with
      | seq_first h => cases h
      | seq_second h =>
        cases h with
        | seq_first h =>
          cases h with
          | times h => cases h
        | seq_second h => cases h
    · simp [Grammar.parentheses, Grammar.definition?] at hp
  have hp : ∀ rule, ¬(Parser.handle 0).Contains (.custom rule) := nofun
  have placed := Cursor.placed_start .parentheses
  have hdepth : Grammar.parentheses.depth .parentheses ≤ 8 := by decide
  have unstopped : r.ending ≠ .raised (.caller "left recursion") := nofun
  obtain ⟨ends, agrees⟩ := (guarded_runs_terminate_and_agree .parentheses (.handle 0) hg hp
    placed).1 (.caller "left recursion") 8 hdepth
  exact ⟨⟨hg, hp, placed, hdepth⟩, ends, unstopped, rfl, (agrees unstopped).1⟩

/-- Its handle calls itself before anything is read. -/
def Grammar.leftRecursive : Grammar := ⟨#[some (.choice (.seq (.handle 0) .item) [.item])]⟩

/-- There the guard stops the run, which by itself uses up the depth that is granted. -/
example :
    let p := Parser.handle 0
    (p.runGuarded .leftRecursive .parentheses .emptyChoice 8 .start).ending = .raised .emptyChoice ∧
      (p.run .leftRecursive .parentheses .start).ending = .exhausted := ⟨rfl, rfl⟩

end Backtrack
