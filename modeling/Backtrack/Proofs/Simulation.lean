import Backtrack.Parser.Parts
import Backtrack.Proofs.Depth
import Backtrack.Proofs.Progress

/-!
# Runs that agree

Two parsers are run from the same cursor: over sequences of items that agree from there on, with
other meanings of the handles, and with parts exchanged.  What the parts come to alike, the whole
parsers come to alike.

* `Comparison`: what the runs are compared over, and how.  Not all ends of the first run need be
  compared, and the log is compared through a view of its entries.
* `Comparison.Agrees`: the second run does as the first one does, given enough depth.
* one lemma for each way to combine runs.
* `Parser.Variant.agrees`: if exchanged parts agree, so do the parsers.
-/

namespace Backtrack

/-! ### Runs alike -/

/-- Runs that end alike, in the same state, with the same view of their logs. -/
structure Run.Alike {σ : Type} (view : Entry → Option Entry) (r r' : Run σ) : Prop where
  ending : r'.ending = r.ending
  state : r'.state = r.state
  log : r'.log.filterMap view = r.log.filterMap view

namespace Run.Alike

variable {σ τ : Type} {view : Entry → Option Entry} {r r' r'' : Run σ}

theorem refl (view : Entry → Option Entry) (r : Run σ) : r.Alike view r := ⟨rfl, rfl, rfl⟩

theorem symm (h : r.Alike view r') : r'.Alike view r :=
  ⟨h.ending.symm, h.state.symm, h.log.symm⟩

theorem trans (h : r.Alike view r') (h' : r'.Alike view r'') : r.Alike view r'' :=
  ⟨h'.ending.trans h.ending, h'.state.trans h.state, h'.log.trans h.log⟩

/-- Runs that are alike in everything are the same. -/
theorem eq (h : r.Alike some r') : r' = r := by
  obtain ⟨ending, state, log⟩ := h
  cases r
  cases r'
  simp_all

theorem after {entries entries' : List Entry} (h : r.Alike view r')
    (he : entries'.filterMap view = entries.filterMap view) :
    (r.after entries).Alike view (r'.after entries') :=
  ⟨h.ending, h.state, by simp [he, h.log]⟩

theorem withState (h : r.Alike view r') (s : τ) : (r.withState s).Alike view (r'.withState s) :=
  ⟨h.ending, rfl, h.log⟩

theorem andThen {next next' : Outcome → σ → Run σ} (h : r.Alike view r')
    (hn : ∀ o, r.ending = .answered o → (next o r.state).Alike view (next' o r.state)) :
    (r.andThen next).Alike view (r'.andThen next') := by
  cases hr : r.ending with
  | exhausted =>
    rw [Run.andThen_of_exhausted hr, Run.andThen_of_exhausted (h.ending.trans hr)]
    exact h
  | raised f =>
    rw [Run.andThen_of_raised hr, Run.andThen_of_raised (h.ending.trans hr)]
    exact h
  | answered o =>
    rw [Run.andThen_of_answered hr, Run.andThen_of_answered (h.ending.trans hr), h.state]
    exact (hn o hr).after h.log

theorem attempt {body body' : Cursor → Run Cursor} {c : Cursor}
    (h : (body c.fork).Alike view (body' c.fork)) :
    (attempt body c).Alike view (attempt body' c) := by
  refine ⟨by rw [ending_attempt, ending_attempt, h.ending], ?_, by
    rw [log_attempt, log_attempt, h.log]⟩
  simp only [Backtrack.attempt, h.ending, h.state]
  split <;> rfl

theorem closeFunction {r r' : Run Forks} (h : r.Alike view r') (c : Cursor) :
    (closeFunction c r).Alike view (closeFunction c r') := by
  unfold Backtrack.closeFunction
  rw [h.ending, h.state]
  split <;> exact h.withState _

end Run.Alike

/-! ### What is compared -/

/-- From index `n` on, the two sequences hold the same items. -/
def Items.SameFrom (items items' : Items) (n : Nat) : Prop :=
  ∀ k, n ≤ k → items.get? k = items'.get? k

theorem Items.SameFrom.size_eq {items items' : Items} {n : Nat} (h : items.SameFrom items' n)
    (hn : n ≤ items.size) (hn' : n ≤ items'.size) : items.size = items'.size := by
  have none_at (items : Items) : items.get? items.size = none :=
    Items.get?_eq_none_iff.2 (Nat.le_refl _)
  have le : items'.size ≤ items.size :=
    Items.get?_eq_none_iff.1 ((h _ hn).symm.trans (none_at items))
  have ge : items.size ≤ items'.size :=
    Items.get?_eq_none_iff.1 ((h _ hn').trans (none_at items'))
  exact Nat.le_antisymm ge le

/-- The two sequences have as many items, and both are counted or neither is. -/
structure Items.CountedAlike (items items' : Items) : Prop where
  size_eq : items.size = items'.size
  countable_eq : items.isCountable = items'.isCountable

theorem Items.CountedAlike.count_eq {items items' : Items} (h : items.CountedAlike items') :
    items.count = items'.count := by
  rw [Items.count, Items.count, h.size_eq, h.countable_eq]

/-- How runs over two sequences of items are compared. -/
structure Comparison where
  items : Items
  items' : Items
  /-- What is compared of a log entry, if anything. -/
  view : Entry → Option Entry
  /-- Whether callers' functions may occur. -/
  rules : Prop
  /-- The ends of the first run that the second has to meet. -/
  ends : Ending → Prop
  ends_answered : ∀ o, ends (.answered o)
  /-- A caller's function may go on from a fault. -/
  ends_raised : rules → ∀ f, ends (.raised f)

namespace Comparison

/-- The second run, given enough depth, does as the first one, if the first one's end counts. -/
def Agrees {σ : Type} (k : Comparison) (r : Run σ) (family : Nat → Run σ) : Prop :=
  k.ends r.ending → ∃ depth, ∀ d ≥ depth, r.Alike k.view (family d)

/-- A cursor that is placed in both sequences, which agree from it on. -/
structure Shares (k : Comparison) (c : Cursor) : Prop where
  placed : c.Placed k.items
  counted : k.items.CountedAlike k.items'
  same : k.items.SameFrom k.items' c.position

variable {k : Comparison}

/-- Over one sequence every placed cursor will do. -/
theorem shares_of_eq {c : Cursor} (h : k.items = k.items') (hc : c.Placed k.items) : k.Shares c :=
  ⟨hc, ⟨congrArg Items.size h, congrArg Items.isCountable h⟩, fun _ _ => by rw [h]⟩

theorem Shares.fork {c : Cursor} (h : k.Shares c) : k.Shares c.fork :=
  ⟨h.placed.fork, h.counted, h.same⟩

theorem Shares.later {c d : Cursor} (h : k.Shares c) (hd : c.Extends k.items d) : k.Shares d :=
  ⟨hd.placed, h.counted, fun i hi => h.same i (Nat.le_trans hd.le hi)⟩

theorem Shares.get?_eq {c : Cursor} (h : k.Shares c) :
    k.items.get? c.position = k.items'.get? c.position :=
  h.same c.position (Nat.le_refl _)

theorem Shares.next_eq {c : Cursor} (h : k.Shares c) : c.next k.items = c.next k.items' := by
  simp only [Cursor.next, Cursor.read, h.get?_eq, h.counted.count_eq]

theorem Shares.remaining_eq {c : Cursor} (h : k.Shares c) :
    c.remaining k.items = c.remaining k.items' := by
  rw [Cursor.remaining, Cursor.remaining, h.counted.count_eq]

theorem Shares.left_eq {c : Cursor} (h : k.Shares c) : c.left k.items = c.left k.items' := by
  rw [Cursor.left, Cursor.left, h.counted.size_eq]

/-! ### Combining runs -/

section Combinators

variable {c : Cursor} {r : Run Cursor} {family : Nat → Run Cursor} {body : Cursor → Run Cursor}
  {body' : Nat → Cursor → Run Cursor}

theorem agrees_of_eq {σ : Type} {r r' : Run σ} (h : r = r') : k.Agrees r fun _ => r' :=
  fun _ => ⟨0, fun _ _ => h ▸ .refl k.view r⟩

theorem Agrees.of_alike {σ : Type} {r r' : Run σ} {family : Nat → Run σ}
    (h : k.Agrees r family) (alike : r.Alike k.view r') : k.Agrees r' family := by
  intro hends
  obtain ⟨depth, hdepth⟩ := h (alike.ending ▸ hends)
  exact ⟨depth, fun d hd => alike.symm.trans (hdepth d hd)⟩

/-- The second run may need one more call of a handle to get as far. -/
theorem Agrees.succ {σ : Type} {r : Run σ} {family family' : Nat → Run σ}
    (h : k.Agrees r family) (alike : ∀ d, (family d).Alike k.view (family' (d + 1))) :
    k.Agrees r family' := by
  intro hends
  obtain ⟨depth, hdepth⟩ := h hends
  refine ⟨depth + 1, fun d hd => ?_⟩
  obtain ⟨d, rfl⟩ := Nat.exists_eq_add_of_le' (Nat.le_trans (Nat.le_add_left 1 depth) hd)
  exact (hdepth d (by omega)).trans (alike d)

theorem agrees_attempt (h : k.Agrees (body c.fork) fun d => body' d c.fork) :
    k.Agrees (attempt body c) fun d => attempt (body' d) c := by
  intro hends
  rw [ending_attempt] at hends
  obtain ⟨depth, hdepth⟩ := h hends
  exact ⟨depth, fun d hd => (hdepth d hd).attempt⟩

theorem agrees_probe (h : k.Agrees (body c.fork) fun d => body' d c.fork) :
    k.Agrees (probe body c) fun d => probe (body' d) c := by
  intro hends
  obtain ⟨depth, hdepth⟩ := h hends
  exact ⟨depth, fun d hd => (hdepth d hd).withState c⟩

theorem agrees_andThen {next : Outcome → Cursor → Run Cursor}
    {next' : Nat → Outcome → Cursor → Run Cursor} (h : k.Agrees r family)
    (hn : ∀ o, k.Agrees (next o r.state) fun d => next' d o r.state) :
    k.Agrees (r.andThen next) fun d => (family d).andThen (next' d) := by
  intro hends
  by_cases hr : ∃ o, r.ending = .answered o
  · obtain ⟨o, ho⟩ := hr
    rw [Run.andThen_of_answered ho, Run.ending_after] at hends
    obtain ⟨d₁, h₁⟩ := h (ho ▸ k.ends_answered o)
    obtain ⟨d₂, h₂⟩ := hn o hends
    refine ⟨max d₁ d₂, fun d hd => (h₁ d (by omega)).andThen fun o' ho' => ?_⟩
    obtain rfl : o = o' := by simpa [ho] using ho'
    exact h₂ d (by omega)
  · have hstop : r.andThen next = r := by
      cases he : r.ending with
      | exhausted => exact Run.andThen_of_exhausted he next
      | raised f => exact Run.andThen_of_raised he next
      | answered o => exact absurd ⟨o, he⟩ hr
    rw [hstop] at hends
    obtain ⟨depth, hdepth⟩ := h hends
    exact ⟨depth, fun d hd => (hdepth d hd).andThen fun o ho => absurd ⟨o, ho⟩ hr⟩

theorem agrees_onMatch {next : Value → Cursor → Run Cursor}
    {next' : Nat → Value → Cursor → Run Cursor} (h : k.Agrees r family)
    (hn : ∀ v, k.Agrees (next v r.state) fun d => next' d v r.state) :
    k.Agrees (r.onMatch next) fun d => (family d).onMatch (next' d) := by
  refine agrees_andThen h ?_
  rintro (v | _ | e)
  · exact hn v
  · exact agrees_of_eq rfl
  · exact agrees_of_eq rfl

theorem agrees_orElse {next : Cursor → Run Cursor} {next' : Nat → Cursor → Run Cursor}
    (h : k.Agrees r family) (hn : k.Agrees (next r.state) fun d => next' d r.state) :
    k.Agrees (r.orElse next) fun d => (family d).orElse (next' d) := by
  refine agrees_andThen h ?_
  rintro (v | _ | e)
  · exact agrees_of_eq rfl
  · exact hn
  · exact agrees_of_eq rfl

theorem agrees_output (h : k.Agrees r family) (f : Value → Cursor → Except Fault Value) :
    k.Agrees (r.output f) fun d => (family d).output f :=
  agrees_onMatch h fun _ => agrees_of_eq rfl

theorem agrees_reply (h : k.Agrees r family) (f : Outcome → Cursor → Except Fault Outcome) :
    k.Agrees (r.reply f) fun d => (family d).reply f :=
  agrees_andThen h fun _ => agrees_of_eq rfl

theorem agrees_repeatFrom (b : Bounds)
    (h : ∀ c, k.Shares c → k.Agrees (body c) fun d => body' d c) (hs : Steady k.items body)
    (budget : Nat) (outputs : List Value) (hc : k.Shares c) :
    k.Agrees (repeatFrom b body budget outputs [] c) fun d =>
      repeatFrom b (body' d) budget outputs [] c := by
  induction budget generalizing outputs c with
  | zero => exact agrees_of_eq rfl
  | succ budget ih =>
    simp only [repeatFrom_succ]
    refine agrees_andThen (h c hc) ?_
    rintro (v | _ | e)
    · dsimp only
      split
      · exact agrees_of_eq rfl
      · exact ih _ (hc.later (hs c hc.placed))
    · exact agrees_of_eq rfl
    · exact agrees_of_eq rfl

theorem agrees_closeFunction {r : Run Forks} {family : Nat → Run Forks} (h : k.Agrees r family) :
    k.Agrees (closeFunction c r) fun d => closeFunction c (family d) := by
  intro hends
  rw [ending_closeFunction] at hends
  obtain ⟨depth, hdepth⟩ := h hends
  exact ⟨depth, fun d hd => (hdepth d hd).closeFunction c⟩

/-! ### Reading -/

theorem agrees_readItem (h : k.Shares c) :
    k.Agrees (c.readItem k.items) fun _ => c.readItem k.items' := by
  apply agrees_of_eq
  simp only [Cursor.readItem, h.next_eq]

theorem agrees_readMember (h : k.Shares c) (group : Items) :
    k.Agrees (c.readMember k.items group) fun _ => c.readMember k.items' group :=
  agrees_reply (agrees_readItem h) _

theorem readAll_eq (h : k.Shares c) (pattern : Items) (i count : Nat) :
    c.readAll k.items pattern i count = c.readAll k.items' pattern i count := by
  induction count generalizing c i with
  | zero => rfl
  | succ count ih =>
    have later := h.placed.extends_read
    cases counted : k.items.isCountable with
    | false =>
      have counted' := h.counted.countable_eq.symm.trans counted
      rw [Cursor.readAll_of_uncountable counted, Cursor.readAll_of_uncountable counted']
    | true =>
      have counted' := h.counted.countable_eq.symm.trans counted
      have read_eq : c.read k.items = c.read k.items' := by
        simp only [Cursor.read, h.get?_eq]
      rw [Cursor.readAll_succ counted, Cursor.readAll_succ counted', ← read_eq]
      split
      · rename_i v c' expected hread _
        rw [hread] at later
        split
        · exact ih (h.later later) _
        · rfl
      · rfl

theorem agrees_readLiteral (h : k.Shares c) (pattern : Items) (output : Value) :
    k.Agrees (c.readLiteral k.items pattern output) fun _ =>
      c.readLiteral k.items' pattern output := by
  apply agrees_of_eq
  simp only [Cursor.readLiteral, readAll_eq h]

end Combinators

/-! ### Streams of a rule -/

/-- Streams that are in order in the first sequence, and none of which starts before the place from
which on the two sequences agree. -/
structure SharesAll (k : Comparison) (base : Nat) (s : Forks) : Prop where
  orderly : s.Orderly k.items
  start_le : ∀ i b, s.get? i = some b → base ≤ b.cursor.span.start
  counted : k.items.CountedAlike k.items'
  same : k.items.SameFrom k.items' base

section Streams

variable {base : Nat} {s t : Forks}

theorem SharesAll.shares (h : k.SharesAll base s) {i : Nat} {b : Branch}
    (hb : s.get? i = some b) : k.Shares b.cursor := by
  have placed := h.orderly.placed i b hb
  have le := Nat.le_trans (h.start_le i b hb) placed.start_le
  exact ⟨placed, h.counted, fun j hj => h.same j (Nat.le_trans le hj)⟩

theorem Shares.handedIn {c : Cursor} (h : k.Shares c) :
    k.SharesAll c.position (.single c.fork .handedIn) := by
  refine ⟨Forks.orderly_handedIn h.fork.placed, fun i b hb => ?_, h.counted, h.same⟩
  rw [Forks.get?_single] at hb
  split at hb
  · cases hb
    exact Nat.le_of_eq h.placed.sound
  · cases hb

/-- Whatever is done with the streams, none starts earlier than the streams that were there. -/
theorem SharesAll.change (h : k.SharesAll base s) (hc : Forks.Change k.items s t) :
    k.SharesAll base t := by
  refine ⟨hc.orderly h.orderly, ?_, h.counted, h.same⟩
  cases hc with
  | stay => exact h.start_le
  | @move i b b' hb _ start _ =>
    intro j d hd
    rw [Forks.get?_set hb] at hd
    split at hd
    · cases hd
      rw [start]
      exact h.start_le i b hb
    · exact h.start_le j d hd
  | @branch i b hb =>
    intro j d hd
    rw [Forks.get?_push] at hd
    split at hd
    · cases hd
      exact Nat.le_trans (h.start_le i b hb) b.cursor.span.start_le_stop
    · exact h.start_le j d hd

theorem SharesAll.perform_eq (h : k.SharesAll base s) (op : Operation) (i : Nat) :
    s.perform k.items op i = s.perform k.items' op i := by
  cases hb : s.get? i with
  | none => rw [Forks.perform_of_none hb, Forks.perform_of_none hb]
  | some b =>
    have shares := h.shares hb
    cases op with
    | next => simp only [Forks.perform, hb, shares.next_eq]
    | measure => simp only [Forks.perform, hb, shares.remaining_eq]
    | fork | commit | uncommit | matched _ | close | abort | inspect =>
      simp only [Forks.perform, hb]

theorem agrees_runOn {body : Cursor → Run Cursor} {body' : Nat → Cursor → Run Cursor} {i : Nat}
    (h : ∀ b, s.get? i = some b → k.Agrees (body b.cursor) fun d => body' d b.cursor) :
    k.Agrees (s.runOn body i) fun d => s.runOn (body' d) i := by
  unfold Forks.runOn
  cases hb : s.get? i with
  | none => exact agrees_of_eq rfl
  | some b =>
    intro hends
    obtain ⟨depth, hdepth⟩ := h b hb hends
    refine ⟨depth, fun d hd => ?_⟩
    have alike := hdepth d hd
    dsimp only
    rw [alike.state]
    exact alike.withState _

end Streams

end Comparison

/-! ### Parsers and rules -/

section Parsers

open Comparison

variable {k : Comparison} {base : Parser → Parser → Prop} {call : Nat → Cursor → Run Cursor}
  {call' : Nat → Nat → Cursor → Run Cursor}

mutual

/-- If exchanged parts agree, so do the parsers. -/
theorem Parser.Variant.agrees
    (hbase : ∀ p p', base p p' → ∀ c, k.Shares c →
      k.Agrees (p.runWith k.items call c) fun d => p'.runWith k.items' (call' d) c)
    (hsteady : ∀ n, Steady k.items (call n)) :
    ∀ {p p' : Parser}, p.Variant base k.rules p' → ∀ c, k.Shares c →
      k.Agrees (p.runWith k.items call c) fun d => p'.runWith k.items' (call' d) c
  | _, _, .base h, c, hc => hbase _ _ h c hc
  | _, _, .literal items output, c, hc => agrees_attempt (agrees_readLiteral hc.fork items output)
  | _, _, .oneOf group, c, hc => agrees_attempt (agrees_readMember hc.fork group)
  | _, _, .item, c, hc => agrees_readItem hc
  | _, _, .empty, c, hc => agrees_of_eq rfl
  | _, _, .atEnd, c, hc => agrees_reply (agrees_probe (agrees_readItem hc.fork)) _
  | _, _, .custom allowed h, c, hc =>
    agrees_closeFunction (Rule.Variant.agrees hbase hsteady allowed h hc.handedIn)
  | _, _, .seq (p := p) first second, c, hc =>
    agrees_attempt (agrees_onMatch (first.agrees hbase hsteady _ hc.fork) fun v =>
      agrees_output (second.agrees hbase hsteady _
        (hc.fork.later (p.steady hsteady _ hc.fork.placed))) _)
  | _, _, .choice (p := p) first others, c, hc =>
    agrees_attempt (agrees_orElse (agrees_attempt (first.agrees hbase hsteady _ hc.fork.fork))
      (others.agrees hbase hsteady _
        (hc.fork.later (steady_attempt (p.steady hsteady) _ hc.fork.placed))))
  | _, _, .optional body, c, hc =>
    agrees_orElse (agrees_attempt (body.agrees hbase hsteady _ hc.fork)) (agrees_of_eq rfl)
  | _, _, .absent body, c, hc =>
    agrees_reply (agrees_probe (body.agrees hbase hsteady _ hc.fork)) _
  | _, _, .times (p := p) body bounds, c, hc => by
    have budget := hc.fork.left_eq
    refine agrees_attempt ?_
    simp only [Bounds.budget, ← budget]
    exact agrees_repeatFrom bounds
      (fun d hd => agrees_attempt (body.agrees hbase hsteady _ hd.fork))
      (steady_attempt (p.steady hsteady)) _ _ hc.fork
  | _, _, .map body _, c, hc =>
    agrees_attempt (agrees_output (body.agrees hbase hsteady _ hc.fork) _)
  | _, _, .withSpan body, c, hc =>
    agrees_attempt (agrees_output (body.agrees hbase hsteady _ hc.fork) _)
  | _, _, .lookingAt (p := p) body peek, c, hc =>
    agrees_attempt (agrees_onMatch (body.agrees hbase hsteady _ hc.fork) fun v =>
      agrees_output (agrees_probe (peek.agrees hbase hsteady _
        (hc.fork.later (p.steady hsteady _ hc.fork.placed)).fork)) _)
  | _, _, .seqBy (p := p) body chosen, c, hc =>
    agrees_attempt (agrees_onMatch (body.agrees hbase hsteady _ hc.fork) fun v =>
      agrees_output ((chosen v).agrees hbase hsteady _
        (hc.fork.later (p.steady hsteady _ hc.fork.placed))) _)
  | _, _, .lookingAtBy (p := p) body chosen, c, hc =>
    agrees_attempt (agrees_onMatch (body.agrees hbase hsteady _ hc.fork) fun v =>
      agrees_output (agrees_probe ((chosen v).agrees hbase hsteady _
        (hc.fork.later (p.steady hsteady _ hc.fork.placed)).fork)) _)
  | _, _, .require body _, c, hc =>
    agrees_attempt (agrees_reply (body.agrees hbase hsteady _ hc.fork) _)
  | _, _, .reject body _, c, hc =>
    agrees_probe (agrees_reply (body.agrees hbase hsteady _ hc.fork) _)
  | _, _, .forgive body, c, hc =>
    agrees_andThen (agrees_attempt (body.agrees hbase hsteady _ hc.fork)) fun _ =>
      agrees_of_eq rfl
  | _, _, .traced body _, c, hc =>
    agrees_andThen (body.agrees hbase hsteady _ hc) fun _ => agrees_of_eq rfl

theorem Parser.VariantAll.agrees
    (hbase : ∀ p p', base p p' → ∀ c, k.Shares c →
      k.Agrees (p.runWith k.items call c) fun d => p'.runWith k.items' (call' d) c)
    (hsteady : ∀ n, Steady k.items (call n)) :
    ∀ {ps ps' : List Parser}, Parser.VariantAll base k.rules ps ps' → ∀ c, k.Shares c →
      k.Agrees (Parser.runFirst k.items call ps c) fun d =>
        Parser.runFirst k.items' (call' d) ps' c
  | _, _, .nil, _, _ => agrees_of_eq rfl
  | _, _, .cons (p := p) first others, _, hc =>
    agrees_orElse (agrees_attempt (first.agrees hbase hsteady _ hc.fork))
      (others.agrees hbase hsteady _
        (hc.later (steady_attempt (p.steady hsteady) _ hc.placed)))

theorem Parser.VariantChosen.agrees
    (hbase : ∀ p p', base p p' → ∀ c, k.Shares c →
      k.Agrees (p.runWith k.items call c) fun d => p'.runWith k.items' (call' d) c)
    (hsteady : ∀ n, Steady k.items (call n)) :
    ∀ {r r' : Except Fault Parser}, Parser.VariantChosen base k.rules r r' → ∀ c, k.Shares c →
      k.Agrees (Parser.runChosen k.items call r c) fun d =>
        Parser.runChosen k.items' (call' d) r' c
  | _, _, .error f, _, _ => agrees_of_eq rfl
  | _, _, .ok h, c, hc => h.agrees hbase hsteady c hc

theorem Rule.Variant.agrees
    (hbase : ∀ p p', base p p' → ∀ c, k.Shares c →
      k.Agrees (p.runWith k.items call c) fun d => p'.runWith k.items' (call' d) c)
    (hsteady : ∀ n, Steady k.items (call n)) (allowed : k.rules) :
    ∀ {rule rule' : Rule}, rule.Variant base k.rules rule' → ∀ {b : Nat} {s : Forks},
      k.SharesAll b s →
      k.Agrees (rule.runWith k.items call s) fun d => rule'.runWith k.items' (call' d) s
  | _, _, .finish o, _, s, hs => agrees_of_eq rfl
  | _, _, .raise f, _, s, hs => agrees_of_eq rfl
  | _, _, .act operation stream h, _, s, hs => by
    simp only [Rule.runWith, ← hs.perform_eq]
    exact Rule.Variant.agrees hbase hsteady allowed (h _)
      (hs.change (hs.orderly.perform operation stream).1)
  | _, _, .parse (p := p) stream body h, _, s, hs => by
    have first := agrees_runOn (i := stream) fun b hb =>
      body.agrees hbase hsteady b.cursor (hs.shares hb)
    have later := hs.change (hs.orderly.runOn (p.steady hsteady) stream)
    have rest := fun r => Rule.Variant.agrees hbase hsteady allowed (h r) later
    intro hends
    simp only [Rule.runWith] at hends ⊢
    cases hr : (s.runOn (p.runWith k.items call) stream).ending with
    | exhausted =>
      rw [hr] at hends
      obtain ⟨depth, hdepth⟩ := first (hr ▸ hends)
      refine ⟨depth, fun d hd => ?_⟩
      have alike := hdepth d hd
      rw [alike.ending, hr]
      exact alike
    | raised f =>
      rw [hr] at hends
      obtain ⟨d₁, h₁⟩ := first (hr ▸ k.ends_raised allowed f)
      obtain ⟨d₂, h₂⟩ := rest (.error f) hends
      refine ⟨max d₁ d₂, fun d hd => ?_⟩
      have alike := h₁ d (by omega)
      rw [alike.ending, alike.state, hr]
      exact (h₂ d (by omega)).after alike.log
    | answered o =>
      rw [hr] at hends
      obtain ⟨d₁, h₁⟩ := first (hr ▸ k.ends_answered o)
      obtain ⟨d₂, h₂⟩ := rest (.ok o) hends
      refine ⟨max d₁ d₂, fun d hd => ?_⟩
      have alike := h₁ d (by omega)
      rw [alike.ending, alike.state, hr]
      exact (h₂ d (by omega)).after alike.log

end

/-- If calls of handles agree, so do runs of one parser. -/
theorem Parser.agrees
    (hcall : ∀ n c, k.Shares c → k.Agrees (call n c) fun d => call' d n c)
    (hsteady : ∀ n, Steady k.items (call n)) (p : Parser)
    (allowed : ∀ rule, p.Contains (.custom rule) → k.rules) (c : Cursor) (hc : k.Shares c) :
    k.Agrees (p.runWith k.items call c) fun d => p.runWith k.items' (call' d) c := by
  have self : p.Variant (fun q q' => ∃ n, q = .handle n ∧ q' = .handle n) k.rules p :=
    p.variant_self (fun n => ⟨n, rfl, rfl⟩) allowed
  refine self.agrees ?_ hsteady c hc
  rintro _ _ ⟨n, rfl, rfl⟩
  exact hcall n

/-- Calls of a handle agree, at one depth for both sequences. -/
theorem Grammar.agrees_call (allowed : k.rules) (g : Grammar) (depth n : Nat) (c : Cursor)
    (hc : k.Shares c) :
    k.Agrees (g.call k.items depth n c) fun _ => g.call k.items' depth n c := by
  induction depth generalizing n c with
  | zero => exact agrees_of_eq rfl
  | succ depth ih =>
    unfold Grammar.call
    split
    · exact agrees_of_eq rfl
    · rename_i p _
      have same : k.Agrees (p.runWithin g k.items depth c.fork) fun _ =>
          p.runWithin g k.items' depth c.fork :=
        p.agrees ih (g.steady_call k.items depth) (fun _ _ => allowed) c.fork hc.fork
      exact agrees_attempt same

/-- Runs of one parser agree, at one depth for both sequences. -/
theorem Parser.agrees_runWithin (allowed : k.rules) (g : Grammar) (depth : Nat) (p : Parser)
    (c : Cursor) (hc : k.Shares c) :
    k.Agrees (p.runWithin g k.items depth c) fun _ => p.runWithin g k.items' depth c :=
  p.agrees (g.agrees_call allowed depth) (g.steady_call k.items depth) (fun _ _ => allowed) c hc

end Parsers

end Backtrack
