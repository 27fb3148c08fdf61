import Backtrack.Proofs.Depth
import Backtrack.Proofs.Progress

/-!
# Rollback

A parser that does not match leaves its stream as it was, whatever the rules within it did to
streams of their own.  The one exception is a caller's function that stands outermost, traces aside,
and has the stream it was given merged: it returns with that stream committed, or has closed it
itself while it was committed.

* `Restores`: a body that leaves its stream as it was unless it matches.  An attempt and a probe
  restore whatever their bodies do, and this contains what a committing function did.
* `Rule.leavesCommitted`, `Rule.closesCommitted`: the exception.
* `Forks.merged_perform`, `Rule.merged_eq`: no other step merges the stream that was given, and so
  no run without such a step.
* `unmatched_run_leaves_stream`: the law.
-/

namespace Backtrack

/-- A body that leaves its stream as it was unless it matches. -/
def Restores (body : Cursor → Run Cursor) : Prop :=
  ∀ c : Cursor, (∀ v, (body c).ending ≠ .answered (.matched v)) → (body c).state = c

/-- The parser without the traces around it. -/
def Parser.untraced : Parser → Parser
  | .traced p _ => p.untraced
  | p => p

/-- Whether a rule that runs as a function from `c` leaves the stream it was given committed. -/
def Rule.leavesCommitted (items : Items) (call : Nat → Cursor → Run Cursor) (rule : Rule)
    (c : Cursor) : Bool :=
  ((rule.runWith items call (.single c.fork .handedIn)).state.get? 0).any (·.committed)

/-- Whether an operation merges the stream that was handed in: it closes that stream, which is
committed. -/
def Forks.mergesGiven (s : Forks) (operation : Operation) (stream : Nat) : Bool :=
  match operation with
  | .close => stream == 0 && (s.get? 0).any (·.committed)
  | _ => false

/-- Whether a rule, on its way from `s`, closes the stream that it was given while that is
committed. -/
def Rule.closesCommittedFrom (items : Items) (call : Nat → Cursor → Run Cursor) :
    Rule → Forks → Bool
  | .finish _, _ | .raise _, _ => false
  | .act operation stream next, s =>
    s.mergesGiven operation stream ||
      (next (s.perform items operation stream).1).closesCommittedFrom items call
        (s.perform items operation stream).2
  | .parse parser stream next, s =>
    let r := s.runOn (fun c => parser.runWith items call c) stream
    match r.ending with
    | .exhausted => false
    | .raised f => (next (.error f)).closesCommittedFrom items call r.state
    | .answered o => (next (.ok o)).closesCommittedFrom items call r.state

/-- Whether a rule that runs as a function from `c` closes the stream it was given while that is
committed. -/
def Rule.closesCommitted (items : Items) (call : Nat → Cursor → Run Cursor) (rule : Rule)
    (c : Cursor) : Bool :=
  rule.closesCommittedFrom items call (.single c.fork .handedIn)

/-! ### Bodies that restore -/

theorem restores_attempt (body : Cursor → Run Cursor) : Restores (attempt body) := by
  intro c h
  rw [state_attempt_of_not_matched]
  simpa using h

theorem restores_probe (body : Cursor → Run Cursor) : Restores (probe body) := fun _ _ => rfl

/-- Replacing the outcome of a body that restores in any case restores in any case. -/
theorem restores_reply_probe (body : Cursor → Run Cursor)
    (f : Outcome → Cursor → Except Fault Outcome) :
    Restores fun c => (probe body c).reply f := by
  intro c _
  rw [Run.state_reply, state_probe]

/-- Going on from a body that restores, with runs that leave the stream alone. -/
theorem restores_andThen {body : Cursor → Run Cursor} {next : Outcome → Cursor → Run Cursor}
    (h : Restores body) (hs : ∀ o c, (next o c).state = c)
    (hm : ∀ v c, (next (.matched v) c).ending = .answered (.matched v)) :
    Restores fun c => (body c).andThen next := by
  intro c hc
  dsimp only at hc ⊢
  cases hr : (body c).ending with
  | exhausted =>
    rw [Run.andThen_of_exhausted hr]
    exact h c (by simp [hr])
  | raised f =>
    rw [Run.andThen_of_raised hr]
    exact h c (by simp [hr])
  | answered o =>
    rw [Run.andThen_of_answered hr] at hc ⊢
    rw [Run.state_after, hs]
    refine h c fun v hv => ?_
    obtain rfl : o = .matched v := by simpa [hr] using hv
    exact hc v (hm v _)

theorem restores_readItem (items : Items) : Restores (Cursor.readItem items) := by
  intro c h
  obtain ⟨v, -, hr⟩ | ⟨-, hr⟩ | ⟨-, hr⟩ := c.readItem_cases items
  · exact absurd (by rw [hr]; rfl) (h v)
  · rw [hr]
    rfl
  · rw [hr]
    rfl

section Parsers

variable {items : Items} {call : Nat → Cursor → Run Cursor}

/-- Every parser restores that is not, traces aside, a caller's function. -/
theorem Parser.restores (items : Items) (hcall : ∀ n, Restores (call n)) :
    ∀ p : Parser, (∀ rule, p.untraced ≠ .custom rule) → Restores (p.runWith items call)
  | .literal _ _, _ => restores_attempt _
  | .oneOf _, _ => restores_attempt _
  | .item, _ => restores_readItem items
  | .empty, _ => fun _ _ => rfl
  | .atEnd, _ => restores_reply_probe _ _
  | .custom rule, h => absurd rfl (h rule)
  | .seq _ _, _ => restores_attempt _
  | .choice _ _, _ => restores_attempt _
  | .optional _, _ =>
    restores_andThen (restores_attempt _) (by rintro (v | _ | e) c <;> rfl) fun _ _ => rfl
  | .absent _, _ => restores_reply_probe _ _
  | .times _ _, _ => restores_attempt _
  | .map _ _, _ => restores_attempt _
  | .withSpan _, _ => restores_attempt _
  | .lookingAt _ _, _ => restores_attempt _
  | .seqBy _ _, _ => restores_attempt _
  | .lookingAtBy _ _, _ => restores_attempt _
  | .require _ _, _ => restores_attempt _
  | .reject _ _, _ => restores_probe _
  | .forgive _, _ =>
    restores_andThen (restores_attempt _) (by rintro (v | _ | e) c <;> rfl) fun _ _ => rfl
  | .traced p _, h =>
    restores_andThen (Parser.restores items hcall p h) (fun _ _ => rfl) fun _ _ => rfl
  | .handle n, _ => hcall n

theorem Grammar.restores_call (g : Grammar) (items : Items) (depth handle : Nat) :
    Restores (g.call items depth handle) := by
  intro c h
  cases depth with
  | zero => rfl
  | succ depth =>
    unfold Grammar.call at h ⊢
    split at h
    · rfl
    · exact restores_attempt _ c h

/-- Traces change neither how a run ends nor where it leaves the stream. -/
theorem Parser.runWith_untraced (items : Items) (call : Nat → Cursor → Run Cursor) (c : Cursor) :
    ∀ p : Parser, (p.runWith items call c).ending = (p.untraced.runWith items call c).ending ∧
      (p.runWith items call c).state = (p.untraced.runWith items call c).state
  | .traced p title => by
    obtain ⟨hending, hstate⟩ := Parser.runWith_untraced items call c p
    rw [Parser.untraced, ← hending, ← hstate, Parser.runWith]
    cases h : (p.runWith items call c).ending with
    | exhausted => rw [Run.andThen_of_exhausted h]; exact ⟨h, rfl⟩
    | raised f => rw [Run.andThen_of_raised h]; exact ⟨h, rfl⟩
    | answered o => rw [Run.andThen_of_answered h]; exact ⟨rfl, rfl⟩
  | .literal _ _ | .oneOf _ | .item | .empty | .atEnd | .custom _ | .seq _ _ | .choice _ _
  | .optional _ | .absent _ | .times _ _ | .map _ _ | .withSpan _ | .lookingAt _ _ | .seqBy _ _
  | .lookingAtBy _ _ | .require _ _ | .reject _ _ | .forgive _ | .handle _ => ⟨rfl, rfl⟩

/-- Setting a stream to one that was merged where it was changes nothing in where the first stream
was merged. -/
theorem Forks.merged_set {s : Forks} {i : Nat} {given b b' : Branch} (h : s.get? 0 = some given)
    (hb : s.get? i = some b) (same : b'.merged = b.merged) :
    ∃ d, (s.set i b').get? 0 = some d ∧ d.merged = given.merged := by
  rw [get?_set hb]
  split
  · rename_i first
    obtain rfl : given = b := Option.some.inj (h.symm.trans (first ▸ hb))
    exact ⟨b', rfl, same⟩
  · exact ⟨given, h, rfl⟩

/-- Only closing the stream that was handed in merges it. -/
theorem Forks.merged_perform {s : Forks} {given : Branch} (h : s.get? 0 = some given)
    {op : Operation} {i : Nat} (hn : s.mergesGiven op i = false) :
    ∃ b, (s.perform items op i).2.get? 0 = some b ∧ b.merged = given.merged := by
  have stays : ∃ b, s.get? 0 = some b ∧ b.merged = given.merged := ⟨given, h, rfl⟩
  cases hb : s.get? i with
  | none => rwa [perform_of_none hb]
  | some b =>
    cases op with
    | next =>
      cases counted : items.isCountable with
      | true =>
        rw [perform_next hb counted]
        exact merged_set h hb rfl
      | false => rwa [perform_next_of_uncountable hb counted]
    | fork =>
      rw [perform_fork hb, get?_push, if_neg (Nat.ne_of_lt (lt_size_of_get? h))]
      exact stays
    | commit =>
      rw [perform_commit hb]
      exact merged_set h hb rfl
    | uncommit =>
      rw [perform_uncommit hb]
      exact merged_set h hb rfl
    | matched v =>
      rw [perform_matched hb]
      exact merged_set h hb rfl
    | abort => rwa [perform_abort hb]
    | inspect =>
      simp only [perform, hb]
      exact stays
    | measure => rwa [perform_measure hb]
    | close =>
      cases hc : b.committed with
      | false => rwa [perform_close_uncommitted hb hc]
      | true =>
        cases ho : b.origin with
        | source => rwa [perform_close_source hb ho]
        | handedIn =>
          -- this is another stream, for closing the first one would have merged it
          have other : 0 ≠ i := by
            rintro rfl
            simp [mergesGiven, hb, hc] at hn
          rw [perform_close_handedIn hb ho hc, get?_set hb, if_neg other]
          exact stays
        | forkOf parent =>
          simp only [perform, hb, hc, ho, if_true, mergeInto]
          cases hp : s.get? parent with
          | none => exact stays
          | some p =>
            dsimp only
            split <;> exact merged_set h hp rfl

theorem Forks.merged_runOn {s : Forks} {given : Branch} (h : s.get? 0 = some given)
    (body : Cursor → Run Cursor) (i : Nat) :
    ∃ b, (s.runOn body i).state.get? 0 = some b ∧ b.merged = given.merged := by
  unfold runOn
  cases hb : s.get? i with
  | none => exact ⟨given, h, rfl⟩
  | some b => exact merged_set h hb rfl

/-- A rule that never closes the stream that it was given while that is committed does not merge it
on its way. -/
theorem Rule.merged_eq : ∀ (rule : Rule) {s : Forks} {given : Branch}, s.get? 0 = some given →
    rule.closesCommittedFrom items call s = false →
      ∃ b, (rule.runWith items call s).state.get? 0 = some b ∧ b.merged = given.merged
  | .finish _, _, given, h, _ => ⟨given, h, rfl⟩
  | .raise _, _, given, h, _ => ⟨given, h, rfl⟩
  | .act operation stream next, s, given, h, hn => by
    rw [closesCommittedFrom, Bool.or_eq_false_iff] at hn
    obtain ⟨b, hb, same⟩ : ∃ b, (s.perform items operation stream).2.get? 0 = some b ∧
        b.merged = given.merged := Forks.merged_perform h hn.1
    rw [runWith, ← same]
    exact Rule.merged_eq (next (s.perform items operation stream).1) hb hn.2
  | .parse parser stream next, s, given, h, hn => by
    obtain ⟨b, hb, same⟩ := Forks.merged_runOn h (fun c => parser.runWith items call c) stream
    rw [closesCommittedFrom] at hn
    rw [runWith, ← same]
    split
    · exact ⟨b, hb, rfl⟩
    · rename_i f hf
      simp only [hf] at hn
      exact Rule.merged_eq (next (.error f)) hb hn
    · rename_i o ho
      simp only [ho] at hn
      exact Rule.merged_eq (next (.ok o)) hb hn

/-- The stream that such a function was given is there when it ends, and was never merged. -/
theorem Rule.exists_given {rule : Rule} {c : Cursor}
    (h : rule.closesCommitted items call c = false) :
    ∃ given, (rule.runWith items call (.single c.fork .handedIn)).state.get? 0 = some given ∧
      given.outer c = c := by
  obtain ⟨given, hgiven, same⟩ := Rule.merged_eq rule rfl h
  exact ⟨given, hgiven, by rw [Branch.outer, same]; rfl⟩

/-- A function that raises leaves its stream as it was, unless it closed the stream that it was
given while that was committed. -/
theorem state_custom_of_not_answered {rule : Rule} {c : Cursor}
    (h : ∀ o, ((Parser.custom rule).runWith items call c).ending ≠ .answered o)
    (hm : rule.closesCommitted items call c = false) :
    ((Parser.custom rule).runWith items call c).state = c := by
  obtain ⟨given, hgiven, outer⟩ := Rule.exists_given hm
  rw [Parser.runWith] at h ⊢
  simp only [ending_closeFunction] at h
  unfold closeFunction
  rw [hgiven]
  split
  · exact absurd ‹_ = Ending.answered _› (h _)
  · rename_i b hb _
    obtain rfl : given = b := Option.some.inj hb
    exact outer
  · rfl

/-- A function that does not match leaves its stream as it was, unless it returns with the stream
that it was given committed or closed that stream while it was. -/
theorem state_custom_of_not_committed {rule : Rule} {c : Cursor} {o : Outcome}
    (h : ((Parser.custom rule).runWith items call c).ending = .answered o)
    (ho : o.isMatched = false) (hc : rule.leavesCommitted items call c = false)
    (hm : rule.closesCommitted items call c = false) :
    ((Parser.custom rule).runWith items call c).state = c := by
  obtain ⟨given, hgiven, outer⟩ := Rule.exists_given hm
  rw [Parser.runWith] at h ⊢
  rw [ending_closeFunction] at h
  rw [Rule.leavesCommitted, hgiven] at hc
  have kept : given.committed = false := hc
  unfold closeFunction
  rw [hgiven, h]
  simp only [ho, kept, outer]
  rfl

end Parsers

/-- Traces aside, the parser is no function that, without a match, may leave the stream that it was
given merged: by returning with that stream committed, or by closing it while it is. -/
def Parser.Contained (g : Grammar) (p : Parser) : Prop :=
  ∀ rule, p.untraced = .custom rule → ∀ items depth c, c.Placed items →
    (∀ v, (rule.runWith items (g.call items depth) (.single c.fork .handedIn)).ending ≠
      .answered (.matched v)) →
    rule.closesCommitted items (g.call items depth) c = false ∧
      ∀ o, (rule.runWith items (g.call items depth) (.single c.fork .handedIn)).ending =
        .answered o → rule.leavesCommitted items (g.call items depth) c = false

/-- Such a parser leaves its stream as it was unless it matches. -/
theorem Parser.Contained.state_eq {g : Grammar} {p : Parser} (hp : p.Contained g) {items : Items}
    {depth : Nat} {c : Cursor} (hc : c.Placed items)
    (h : ∀ v, (p.runWithin g items depth c).ending ≠ .answered (.matched v)) :
    (p.runWithin g items depth c).state = c := by
  unfold Parser.runWithin at h ⊢
  by_cases hr : ∃ rule, p.untraced = .custom rule
  · obtain ⟨rule, hr⟩ := hr
    obtain ⟨hending, hstate⟩ := p.runWith_untraced items (g.call items depth) c
    rw [hending, hr] at h
    rw [hstate, hr]
    obtain ⟨hm, hcommit⟩ := hp rule hr items depth c hc fun v hv =>
      h v (by rw [Parser.runWith, ending_closeFunction, hv])
    by_cases ho : ∃ o, ((custom rule).runWith items (g.call items depth) c).ending = .answered o
    · obtain ⟨o, ho⟩ := ho
      have unmatched : o.isMatched = false := by
        cases o with
        | matched v => exact absurd ho (h v)
        | notMatched | failed _ => rfl
      refine state_custom_of_not_committed ho unmatched (hcommit o ?_) hm
      rwa [Parser.runWith, ending_closeFunction] at ho
    · exact state_custom_of_not_answered (fun o h => ho ⟨o, h⟩) hm
  · exact p.restores items (g.restores_call items depth) (fun rule h => hr ⟨rule, h⟩) c h

/-- A rule that reads an item, commits, and declines. -/
def Rule.commitAndDecline : Rule :=
  .perform .next 0 (.perform .commit 0 (.finish .notMatched))

/-- Alone it is not. -/
example :
    let items : Items := .ofText (.ofChars ['a', 'b'])
    let r := (Parser.custom .commitAndDecline).runWith items (Grammar.empty.call items 0) .start
    r.state.position = 1 := rfl

end Backtrack
