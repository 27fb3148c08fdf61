import Mathlib.Data.List.Induction
import Backtrack.Forks

/-!
# Streams of a tree stay in order

Whatever is done with the streams of a tree, and in whatever order, every stream keeps the start of
its span, its span ends where it stands, and it stands within the input.

* `Forks.Orderly`: the invariant.  Beside what holds of each stream alone it relates every fork to
  its parent: a fork starts no earlier than its parent.  Starts never change, so this survives a
  parent that moves on or back while the fork is open, and it is what a merge needs.
* `Forks.Change`: all that one operation can do to a tree.
* `Forks.reachable_streams_in_order`: what holds after any operations on any streams.
-/

namespace Backtrack

namespace Forks

/-- Every stream is placed, and was so when it was merged outside the tree, and every fork starts no
earlier than its parent. -/
structure Orderly (items : Items) (s : Forks) : Prop where
  placed : ∀ i b, s.get? i = some b → b.cursor.Placed items
  merged : ∀ i b d, s.get? i = some b → b.merged = some d →
    d.Placed items ∧ d.span.start = b.cursor.span.start
  parent : ∀ i b k, s.get? i = some b → b.origin = .forkOf k →
    ∃ p, s.get? k = some p ∧ p.cursor.span.start ≤ b.cursor.span.start

/-- Every stream of `s` is a stream of `t`, of the same origin and with the same start. -/
def Keeps (s t : Forks) : Prop :=
  ∀ i b, s.get? i = some b →
    ∃ b', t.get? i = some b' ∧ b'.origin = b.origin ∧ b'.cursor.span.start = b.cursor.span.start

theorem Keeps.refl (s : Forks) : s.Keeps s := fun _ b h => ⟨b, h, rfl, rfl⟩

theorem Keeps.trans {s t u : Forks} (h₁ : s.Keeps t) (h₂ : t.Keeps u) : s.Keeps u := by
  intro i b hb
  obtain ⟨b₁, hb₁, ho₁, hs₁⟩ := h₁ i b hb
  obtain ⟨b₂, hb₂, ho₂, hs₂⟩ := h₂ i b₁ hb₁
  exact ⟨b₂, hb₂, ho₂.trans ho₁, hs₂.trans hs₁⟩

/-- What one operation, or a run of a parser, can do to a tree: nothing, move or mark one stream, or
open one fork. -/
inductive Change (items : Items) (s : Forks) : Forks → Prop
  | stay : Change items s s
  | move {i : Nat} {b b' : Branch} (h : s.get? i = some b) (origin : b'.origin = b.origin)
      (start : b'.cursor.span.start = b.cursor.span.start) (placed : b'.cursor.Placed items)
      (merged : ∀ d, b'.merged = some d → b.merged = some d ∨ d = b.cursor) :
      Change items s (s.set i b')
  | branch {i : Nat} {b : Branch} (h : s.get? i = some b) :
      Change items s (s.push (b.forkOf i))

variable {items : Items} {s t : Forks}

theorem Change.keeps (h : Change items s t) : s.Keeps t := by
  cases h with
  | stay => exact .refl s
  | @move i b b' hb origin start placed merged =>
    intro k d hd
    by_cases hk : k = i
    · subst hk
      obtain rfl : b = d := Option.some.inj (hb.symm.trans hd)
      exact ⟨b', get?_set_self hb b', origin, start⟩
    · exact ⟨d, by rw [get?_set hb, if_neg hk, hd], rfl, rfl⟩
  | branch hb =>
    intro k d hd
    have hk : k ≠ s.branches.size := Nat.ne_of_lt (lt_size_of_get? hd)
    exact ⟨d, by rw [get?_push, if_neg hk, hd], rfl, rfl⟩

theorem Change.orderly (h : Change items s t) (hs : s.Orderly items) : t.Orderly items := by
  -- a parent is found again in the changed tree, with the start that it had
  have parent : ∀ {b : Branch} {k : Nat}, (∃ p, s.get? k = some p ∧
      p.cursor.span.start ≤ b.cursor.span.start) →
      ∃ p, t.get? k = some p ∧ p.cursor.span.start ≤ b.cursor.span.start := by
    rintro b k ⟨p, hp, hle⟩
    obtain ⟨p', hp', -, hstart⟩ := h.keeps k p hp
    exact ⟨p', hp', hstart ▸ hle⟩
  cases h with
  | stay => exact hs
  | @move i b b' hb origin start placed merged =>
    constructor
    · intro k d hd
      rw [get?_set hb] at hd
      split at hd
      · cases hd
        exact placed
      · exact hs.placed k d hd
    · intro k d m hd hm
      rw [get?_set hb] at hd
      split at hd
      · cases hd
        rw [start]
        rcases merged m hm with earlier | rfl
        · exact hs.merged i b m hb earlier
        · exact ⟨hs.placed i b hb, rfl⟩
      · exact hs.merged k d m hd hm
    · intro k d m hd hm
      rw [get?_set hb] at hd
      split at hd
      · cases hd
        apply parent
        rw [start]
        exact hs.parent i b m hb (origin ▸ hm)
      · exact parent (hs.parent k d m hd hm)
  | @branch i b hb =>
    constructor
    · intro k d hd
      rw [get?_push] at hd
      split at hd
      · cases hd
        exact (hs.placed i b hb).fork
      · exact hs.placed k d hd
    · intro k d m hd hm
      rw [get?_push] at hd
      split at hd
      · cases hd
        cases hm
      · exact hs.merged k d m hd hm
    · intro k d m hd hm
      rw [get?_push] at hd
      split at hd
      · cases hd
        cases hm
        exact parent ⟨b, hb, b.cursor.span.start_le_stop⟩
      · exact parent (hs.parent k d m hd hm)

/-! ### One operation -/

theorem perform_of_none {i : Nat} (h : s.get? i = none) (op : Operation) :
    s.perform items op i = (.refused (.unknownStream i), s) := by
  simp [perform, h]

theorem perform_next {i : Nat} {b : Branch} (h : s.get? i = some b)
    (counted : items.isCountable = true) :
    s.perform items .next i =
      (.item ((items.get? b.cursor.position).elim .notMatched .matched),
        s.set i { b with cursor := (b.cursor.read items).2 }) := by
  cases hv : items.get? b.cursor.position with
  | none => simp [perform, h, Cursor.next_of_countable counted, Cursor.read_of_none hv]
  | some v => simp [perform, h, Cursor.next_of_countable counted, Cursor.read_of_some hv]

theorem perform_next_of_uncountable {i : Nat} {b : Branch} (h : s.get? i = some b)
    (uncounted : items.isCountable = false) :
    s.perform items .next i = (.refused .uncountable, s) := by
  simp [perform, h, Cursor.next_of_uncountable uncounted]

/-- Asking how many items are left leaves every stream where it is. -/
theorem perform_measure {i : Nat} {b : Branch} (h : s.get? i = some b) :
    s.perform items .measure i =
      (if items.isCountable then .measured (b.cursor.left items) else .refused .uncountable,
        s) := by
  cases counted : items.isCountable with
  | true => simp [perform, h, Cursor.remaining_of_countable counted]
  | false => simp [perform, h, Cursor.remaining_of_uncountable counted]

theorem perform_fork {i : Nat} {b : Branch} (h : s.get? i = some b) :
    s.perform items .fork i =
      (.opened s.branches.size, s.push (b.forkOf i)) := by
  simp [perform, h]

theorem perform_commit {i : Nat} {b : Branch} (h : s.get? i = some b) :
    s.perform items .commit i = (.done, s.set i { b with committed := true }) := by
  simp [perform, h]

theorem perform_uncommit {i : Nat} {b : Branch} (h : s.get? i = some b) :
    s.perform items .uncommit i = (.done, s.set i { b with committed := false }) := by
  simp [perform, h]

theorem perform_matched {i : Nat} {b : Branch} (h : s.get? i = some b) (v : Value) :
    s.perform items (.matched v) i =
      (.item (.matched v), s.set i { b with committed := true }) := by
  simp [perform, h]

theorem perform_abort {i : Nat} {b : Branch} (h : s.get? i = some b) :
    s.perform items .abort i = (.done, s) := by
  simp [perform, h]

/-- Closing a committed fork moves its parent to where it stands: the checked constructor accepts
the parent's new span. -/
theorem perform_close {i k : Nat} {b p : Branch} (h : s.get? i = some b)
    (ho : b.origin = .forkOf k) (hc : b.committed = true) (hp : s.get? k = some p)
    (hle : p.cursor.span.start ≤ b.cursor.span.stop) :
    s.perform items .close i = (.done, s.set k { p with cursor := p.cursor.merge b.cursor }) := by
  have hspan : Span.make p.cursor.span.start b.cursor.span.stop =
      .ok (p.cursor.span.upTo b.cursor.span.stop) := by
    rw [Span.make_eq_ok_iff, Span.start_upTo, Span.stop_upTo hle]
    exact ⟨rfl, rfl⟩
  simp [perform, h, ho, hc, mergeInto, hp, hspan, Cursor.merge]

/-- Closing a committed stream that was handed in notes where it stands. -/
theorem perform_close_handedIn {i : Nat} {b : Branch} (h : s.get? i = some b)
    (ho : b.origin = .handedIn) (hc : b.committed = true) :
    s.perform items .close i = (.done, s.set i { b with merged := some b.cursor }) := by
  simp [perform, h, ho, hc]

theorem perform_close_source {i : Nat} {b : Branch} (h : s.get? i = some b)
    (ho : b.origin = .source) : s.perform items .close i = (.done, s) := by
  simp [perform, h, ho]

/-- Closing an uncommitted stream does nothing. -/
theorem perform_close_uncommitted {i : Nat} {b : Branch} (h : s.get? i = some b)
    (hc : b.committed = false) : s.perform items .close i = (.done, s) := by
  simp [perform, h, hc]

/-- One operation on an orderly tree changes it in an orderly way and never asks for an invalid
span. -/
theorem Orderly.perform (hs : s.Orderly items) (op : Operation) (i : Nat) :
    Change items s (s.perform items op i).2 ∧
      ∀ start stop, (s.perform items op i).1 ≠ .refused (.invalidSpan start stop) := by
  cases hb : s.get? i with
  | none =>
    rw [perform_of_none hb]
    exact ⟨.stay, by simp⟩
  | some b =>
    have placed := hs.placed i b hb
    cases op with
    | next =>
      cases counted : items.isCountable with
      | true =>
        rw [perform_next hb counted]
        exact ⟨.move hb rfl (Cursor.start_read items b.cursor) placed.read fun _ => .inl, by simp⟩
      | false =>
        rw [perform_next_of_uncountable hb counted]
        exact ⟨.stay, by simp⟩
    | fork =>
      rw [perform_fork hb]
      exact ⟨.branch hb, by simp⟩
    | commit =>
      rw [perform_commit hb]
      exact ⟨.move hb rfl rfl placed fun _ => .inl, by simp⟩
    | uncommit =>
      rw [perform_uncommit hb]
      exact ⟨.move hb rfl rfl placed fun _ => .inl, by simp⟩
    | matched v =>
      rw [perform_matched hb]
      exact ⟨.move hb rfl rfl placed fun _ => .inl, by simp⟩
    | abort =>
      rw [perform_abort hb]
      exact ⟨.stay, by simp⟩
    | inspect =>
      simp only [Forks.perform, hb]
      exact ⟨.stay, by simp⟩
    | measure =>
      rw [perform_measure hb]
      exact ⟨.stay, by split <;> simp⟩
    | close =>
      cases hc : b.committed with
      | false =>
        rw [perform_close_uncommitted hb hc]
        exact ⟨.stay, by simp⟩
      | true =>
        cases ho : b.origin with
        | source =>
          rw [perform_close_source hb ho]
          exact ⟨.stay, by simp⟩
        | handedIn =>
          rw [perform_close_handedIn hb ho hc]
          exact ⟨.move hb rfl rfl placed fun d hd => .inr (Option.some.inj hd).symm, by simp⟩
        | forkOf k =>
          -- wherever the parent has moved by now, it starts no later than the fork
          obtain ⟨p, hp, hle⟩ := hs.parent i b k hb ho
          have hstop := Nat.le_trans hle b.cursor.span.start_le_stop
          rw [perform_close hb ho hc hp hstop]
          exact ⟨.move hp rfl rfl (placed.merge hstop) fun _ => .inl, by simp⟩

/-- Only forking opens a stream. -/
theorem size_perform {op : Operation} (h : op ≠ .fork) (i : Nat) :
    (s.perform items op i).2.branches.size = s.branches.size := by
  cases hb : s.get? i with
  | none => rw [perform_of_none hb]
  | some b =>
    cases op with
    | next =>
      cases counted : items.isCountable with
      | true => rw [perform_next hb counted, size_set]
      | false => rw [perform_next_of_uncountable hb counted]
    | fork => exact absurd rfl h
    | commit => rw [perform_commit hb, size_set]
    | uncommit => rw [perform_uncommit hb, size_set]
    | matched v => rw [perform_matched hb, size_set]
    | abort => rw [perform_abort hb]
    | inspect => simp only [perform, hb]
    | measure => rw [perform_measure hb]
    | close =>
      simp only [perform, hb]
      split
      · split
        · rfl
        · exact size_set ..
        · unfold mergeInto
          split
          · rfl
          · split <;> exact size_set ..
      · rfl

/-- A stream that is there after an operation was there before, or it is the fork that the operation
opened, which starts where its parent stands. -/
theorem get?_perform {op : Operation} {i k : Nat} {b : Branch}
    (h : (s.perform items op i).2.get? k = some b) :
    (∃ b₀, s.get? k = some b₀) ∨
      k = s.branches.size ∧ op = .fork ∧
        ∃ p, s.get? i = some p ∧ b = p.forkOf i := by
  by_cases hop : op = .fork
  · subst hop
    cases hp : s.get? i with
    | none =>
      rw [perform_of_none hp] at h
      exact .inl ⟨b, h⟩
    | some p =>
      rw [perform_fork hp, get?_push] at h
      split at h
      · exact .inr ⟨‹_›, rfl, p, rfl, (Option.some.inj h).symm⟩
      · exact .inl ⟨b, h⟩
  · have hk : k < s.branches.size := by
      rw [← size_perform hop i]
      exact lt_size_of_get? h
    exact .inl ⟨s.branches[k], Array.getElem?_eq_getElem hk⟩

/-! ### Any operations -/

/-- The tree of one stream that is no fork is orderly. -/
theorem orderly_single {c : Cursor} {o : Origin} (hc : c.Placed items) (ho : ∀ k, o ≠ .forkOf k) :
    (single c o).Orderly items := by
  constructor
  · intro i b hb
    rw [get?_single] at hb
    split at hb
    · cases hb
      exact hc
    · cases hb
  · intro i b d hb hd
    rw [get?_single] at hb
    split at hb
    · cases hb
      cases hd
    · cases hb
  · intro i b k hb hk
    rw [get?_single] at hb
    split at hb
    · cases hb
      exact absurd hk (ho k)
    · cases hb

theorem orderly_opened (items : Items) : opened.Orderly items :=
  orderly_single (Cursor.placed_start items) (by simp)

theorem Orderly.performAll (hs : s.Orderly items) (script : List (Operation × Nat)) :
    (s.performAll items script).Orderly items ∧ s.Keeps (s.performAll items script) := by
  induction script generalizing s with
  | nil => exact ⟨hs, .refl s⟩
  | cons step script ih =>
    have change := (hs.perform step.1 step.2).1
    obtain ⟨orderly, keeps⟩ := ih (change.orderly hs)
    exact ⟨orderly, change.keeps.trans keeps⟩

/-- How stream `i` came to be in a run of operations on the stream of a source: it is that stream,
which starts at zero, or the run forked it, and it starts where its parent stood at that moment. -/
def Opening (items : Items) (script : List (Operation × Nat)) (i : Nat) (b : Branch) : Prop :=
  (i = 0 ∧ b.origin = .source ∧ b.cursor.span.start = 0) ∨
    ∃ before parent after p, script = before ++ (.fork, parent) :: after ∧
      (opened.performAll items before).branches.size = i ∧
      (opened.performAll items before).get? parent = some p ∧
      b.origin = .forkOf parent ∧ b.cursor.span.start = p.cursor.position

theorem opening (items : Items) (script : List (Operation × Nat)) (i : Nat) (b : Branch)
    (h : (opened.performAll items script).get? i = some b) : Opening items script i b := by
  induction script using List.reverseRecOn generalizing b with
  | nil =>
    rw [performAll_nil, get?_single] at h
    split at h
    · cases h
      exact .inl ⟨‹_›, rfl, rfl⟩
    · cases h
  | append_singleton script step ih =>
    rw [performAll_append, performAll_singleton] at h
    have hs := ((orderly_opened items).performAll script).1
    rcases get?_perform h with ⟨b₀, hb₀⟩ | ⟨hi, hop, p, hp, rfl⟩
    · -- an older stream was opened as the operations before say, and has kept its start since
      obtain ⟨b', hb', origin, start⟩ := (hs.perform step.1 step.2).1.keeps i b₀ hb₀
      obtain rfl : b' = b := Option.some.inj (hb'.symm.trans h)
      rcases ih b₀ hb₀ with ⟨hi, ho, hstart⟩ | ⟨before, parent, after, p, rfl, hn, hp, ho, hstart⟩
      · exact .inl ⟨hi, origin.trans ho, start.trans hstart⟩
      · refine .inr ⟨before, parent, after ++ [step], p, ?_, hn, hp, origin.trans ho,
          start.trans hstart⟩
        rw [List.append_assoc, List.cons_append]
    · refine .inr ⟨script, step.2, [], p, ?_, hi.symm, hp, rfl, ?_⟩
      · rw [← hop]
      · exact (hs.placed step.2 p hp).sound.symm

/-- After any operations on any of the streams of a source, in any order: every stream stands where
its span ends, at or after its start and within the input; its start is the one that it was opened
with, where its parent stood then; the spans that reading, forking and merging build are valid; what
is left is what was not read, or is refused with the count; and the three ways to ask for the end of
the input agree. -/
theorem reachable_streams_in_order (items : Items) (script : List (Operation × Nat)) :
    let s := opened.performAll items script
    (∀ i b, s.get? i = some b →
      b.cursor.position = b.cursor.span.stop ∧
      b.cursor.span.start ≤ b.cursor.position ∧ b.cursor.position ≤ items.size ∧
      Opening items script i b ∧
      Span.make b.cursor.span.start (b.cursor.span.stop + 1) = .ok b.cursor.advance.span ∧
      Span.make b.cursor.span.stop b.cursor.span.stop = .ok b.cursor.fork.span ∧
      (b.cursor.remaining items).map (Nat.cast (R := Int)) =
        items.count.map (fun n => n - b.cursor.position : Nat → Int) ∧
      (b.cursor.isAtEnd items = .ok true ↔ b.cursor.remaining items = .ok 0) ∧
      (b.cursor.remaining items = .ok 0 ↔ (s.perform items .next i).1 = .item .notMatched)) ∧
    (∀ before after, script = before ++ after → (opened.performAll items before).Keeps s) ∧
    (∀ op i start stop, (s.perform items op i).1 ≠ .refused (.invalidSpan start stop)) := by
  intro s
  have hs : s.Orderly items := ((orderly_opened items).performAll script).1
  refine ⟨fun i b hb => ?_, ?_, fun op i => (hs.perform op i).2⟩
  · have placed := hs.placed i b hb
    have hsize := placed.le_size
    refine ⟨placed.sound, placed.start_le, hsize, opening items script i b hb,
      Span.make_eq_ok_iff.2 ⟨rfl, rfl⟩, Span.make_eq_ok_iff.2 ⟨rfl, rfl⟩, ?_⟩
    cases counted : items.isCountable with
    | true =>
      rw [Items.count_of_countable counted, Cursor.remaining_of_countable counted,
        Cursor.isAtEnd_of_countable counted, perform_next hb counted]
      refine ⟨?_, ?_, ?_⟩
      · simp only [Except.map, Cursor.left, Except.ok.injEq]
        omega
      · simp only [Except.ok.injEq, decide_eq_true_eq, Cursor.left]
        omega
      · rw [Except.ok.injEq, Cursor.left, Nat.sub_eq_zero_iff_le, ← Items.get?_eq_none_iff]
        cases items.get? b.cursor.position <;> simp
    | false =>
      -- none of the questions is answered
      rw [Items.count_of_uncountable counted, Cursor.remaining_of_uncountable counted,
        Cursor.isAtEnd_of_uncountable counted, perform_next_of_uncountable hb counted]
      simp [Except.map]
  · rintro before after rfl
    rw [show s = (opened.performAll items before).performAll items after from
      performAll_append items before after opened]
    exact (((orderly_opened items).performAll before).1.performAll after).2

end Forks

end Backtrack
