import Mathlib.Data.Set.Card
import Backtrack.Proofs.Simulation

/-!
# The form of a source does not matter

A stream over a text, a byte string, a range, a tuple, a list or any other collection does as a
stream over the list of its items does: the same ends, cursors and logs, whatever is run on it.  A
range stays a range all the while, and its items are made by arithmetic, one at a time.  Only a
range with more items than are counted is not read at all.

* `Source.listing`: the items of a source in a list.
* `Range.lt_size_iff`, `Range.size_eq_ncard`: what the size of a range counts.
* `Comparison.forms`: runs over two sequences are compared in everything.
* `source_form_is_irrelevant`: the law, and `overlong_range_is_not_read` for the other ranges.
-/

namespace Backtrack

open Comparison

/-! ### Ranges -/

namespace Range

/-- The integer lies before the stop, in the direction of the step. -/
def Before (r : Range) (i : Int) : Prop := if 0 < r.step then i < r.stop else r.stop < i

instance (r : Range) (i : Int) : Decidable (r.Before i) :=
  inferInstanceAs (Decidable (if 0 < r.step then i < r.stop else r.stop < i))

/-- The members of a range, one by one. -/
def members (r : Range) : List Int := (List.range r.size).map fun k : Nat => r.start + k * r.step

/-- Counting by steps of `d` from zero, the steps that stay below `n`. -/
theorem lt_toNat_div_iff {d : Int} (hd : 0 < d) (n : Int) (k : Nat) :
    k < ((n - 1) / d + 1).toNat ↔ k * d < n := by
  rw [Int.lt_toNat, Int.lt_add_one_iff, Int.le_ediv_iff_mul_le hd, Int.le_sub_one_iff]

/-- The size in one equation for each direction; the test for an empty range is not needed. -/
theorem size_eq (r : Range) :
    r.size = if 0 < r.step then ((r.stop - r.start - 1) / r.step + 1).toNat
      else ((r.start - r.stop - 1) / (-r.step) + 1).toNat := by
  have empty {d n : Int} (hd : 0 < d) (hn : n ≤ 0) : ((n - 1) / d + 1).toNat = 0 := by
    refine Nat.eq_zero_of_not_pos fun hpos => ?_
    have := (lt_toNat_div_iff hd n 0).1 hpos
    simp only [Int.natCast_zero, zero_mul] at this
    omega
  have hne := r.step_ne_zero
  unfold size
  by_cases hs : 0 < r.step
  · rw [if_pos hs, if_pos hs]
    split
    · rfl
    · exact (empty hs (by omega)).symm
  · rw [if_neg hs, if_neg hs]
    split
    · rfl
    · exact (empty (by omega) (by omega)).symm

/-- The indices of a range are those from which its arithmetic stays before the stop. -/
theorem lt_size_iff (r : Range) (k : Nat) : k < r.size ↔ r.Before (r.start + k * r.step) := by
  have hne := r.step_ne_zero
  rw [size_eq, Before]
  split
  · rename_i hs
    rw [lt_toNat_div_iff hs]
    omega
  · rename_i hs
    rw [lt_toNat_div_iff (by omega), Int.mul_neg]
    omega

/-- The size is the number of integers from the start on, `step` apart, that lie before the stop. -/
theorem size_eq_ncard (r : Range) :
    r.size = {i : Int | r.Before i ∧ ∃ k : Nat, i = r.start + k * r.step}.ncard := by
  have apart : Function.Injective fun k : Nat => r.start + k * r.step := fun k l h => by
    have := Int.eq_of_mul_eq_mul_right r.step_ne_zero (Int.add_left_cancel h)
    exact_mod_cast this
  have image : {i : Int | r.Before i ∧ ∃ k : Nat, i = r.start + k * r.step} =
      (fun k : Nat => r.start + k * r.step) '' (Finset.range r.size) := by
    ext i
    constructor
    · rintro ⟨before, k, rfl⟩
      exact ⟨k, Finset.mem_coe.2 (Finset.mem_range.2 ((r.lt_size_iff k).2 before)), rfl⟩
    · rintro ⟨k, hk, rfl⟩
      exact ⟨(r.lt_size_iff k).1 (Finset.mem_range.1 hk), k, rfl⟩
  rw [image, Set.ncard_image_of_injective _ apart, Set.ncard_coe_finset, Finset.card_range]

/-- A range whose step points away from its stop is empty. -/
theorem size_eq_zero_of_not_before {r : Range} (h : ¬r.Before r.start) : r.size = 0 := by
  refine Nat.eq_zero_of_not_pos fun hpos => h ?_
  simpa using (r.lt_size_iff 0).1 hpos

theorem getElem?_members (r : Range) (k : Nat) : r.members[k]? = r.get? k := by
  rw [members, get?, List.getElem?_map]
  split
  · rename_i hk
    rw [List.getElem?_range hk, Option.map_some]
  · rename_i hk
    rw [List.getElem?_eq_none (by simpa using hk), Option.map_none]

end Range

/-! ### Listings -/

/-- The items of a source, in order, if it has items. -/
def Source.listing : Source → Option (List Value)
  | value (.text t) => some (t.map .char)
  | value (.bytes _ data) => some (data.map .byte)
  | value (.range r) => some (r.members.map .int)
  | value (.tuple xs) => some xs
  | value (.list xs) => some xs
  | value _ => none
  | elements xs => some xs

/-- A source with items has a listing, and the stream reads what is listed. -/
theorem Source.listing_of_items {s : Source} {items : Items} (h : s.items = .ok items) :
    ∃ xs, s.listing = some xs ∧ ∀ k, items.get? k = xs[k]? := by
  cases s with
  | elements xs =>
    cases h
    exact ⟨xs, rfl, fun k => by simp [Items.get?]⟩
  | value v =>
    cases v with
    | text t =>
      cases h
      exact ⟨_, rfl, fun k => by simp⟩
    | bytes storage data =>
      cases h
      exact ⟨_, rfl, fun k => by simp⟩
    | range r =>
      cases h
      exact ⟨_, rfl, fun k => by rw [List.getElem?_map, r.getElem?_members, Items.get?]⟩
    | tuple xs =>
      cases h
      exact ⟨xs, rfl, fun k => by simp [Items.get?]⟩
    | list xs =>
      cases h
      exact ⟨xs, rfl, fun k => by simp [Items.get?]⟩
    | _ => cases h

/-! ### Runs over another form -/

/-- Runs over two sequences of items: everything they come to counts. -/
def Comparison.forms (items items' : Items) : Comparison where
  items := items
  items' := items'
  view := some
  rules := True
  ends := fun _ => True
  ends_answered := fun _ => trivial
  ends_raised := fun _ _ => trivial

section Forms

variable {items items' : Items} (h : ∀ k, items.get? k = items'.get? k)
  (counted : items.isCountable = items'.isCountable)

include h

theorem Items.size_congr : items.size = items'.size :=
  Items.SameFrom.size_eq (n := 0) (fun k _ => h k) (Nat.zero_le _) (Nat.zero_le _)

theorem Cursor.Placed.congr {c : Cursor} (hc : c.Placed items) : c.Placed items' :=
  ⟨hc.sound, Items.size_congr h ▸ hc.le_size⟩

include counted

theorem Items.countedAlike : items.CountedAlike items' := ⟨Items.size_congr h, counted⟩

theorem Cursor.next_congr (c : Cursor) : c.next items = c.next items' := by
  simp only [Cursor.next, Cursor.read, (Items.countedAlike h counted).count_eq, h]

theorem Cursor.remaining_congr (c : Cursor) : c.remaining items = c.remaining items' := by
  rw [Cursor.remaining, Cursor.remaining, (Items.countedAlike h counted).count_eq]

theorem Cursor.isAtEnd_congr (c : Cursor) : c.isAtEnd items = c.isAtEnd items' := by
  rw [Cursor.isAtEnd, Cursor.isAtEnd, (Items.countedAlike h counted).count_eq]

theorem Forks.perform_congr (op : Operation) (i : Nat) (s : Forks) :
    s.perform items op i = s.perform items' op i := by
  unfold Forks.perform
  simp only [Cursor.next_congr h counted, Cursor.remaining_congr h counted]

/-- A parser sees nothing of a sequence but its items. -/
theorem Parser.runWithin_congr (g : Grammar) (p : Parser) (depth : Nat) {c : Cursor}
    (hc : c.Placed items) : p.runWithin g items depth c = p.runWithin g items' depth c := by
  have shares : (forms items items').Shares c :=
    ⟨hc, Items.countedAlike h counted, fun k _ => h k⟩
  obtain ⟨_, alike⟩ := p.agrees_runWithin (k := forms items items') trivial g depth c shares trivial
  exact (alike _ (Nat.le_refl _)).eq.symm

theorem Parser.run_congr (g : Grammar) (p : Parser) {c : Cursor} (hc : c.Placed items) :
    p.run g items c = p.run g items' c := by
  rw [Parser.run, Parser.run, Grammar.depth, Grammar.depth, ← Items.size_congr h,
    Parser.runWithin_congr h counted g p _ hc]

end Forms

/-- The items of every source but a range are counted. -/
theorem Source.isCountable_items {s : Source} {items : Items} (h : s.items = .ok items)
    (hs : ∀ r, s ≠ .value (.range r)) : items.isCountable = true := by
  cases s with
  | elements xs =>
    cases h
    rfl
  | value v => cases v <;> first | exact absurd rfl (hs _) | (cases h; rfl) | cases h

/-- Every source whose items are counted can be exchanged for the list of them.  Wherever a stream
over it may stand, the rest of the input, the next item, every operation on streams and every run of
every parser are the same over the list, the runs with their ends, the cursors they leave and their
logs.

Only a range may have more items than are counted.  Then asking for the end, for the number of items
left or for an item is refused, and nothing moves.

A range is not listed to be read.  Its item with index `k` is `start + k * step` as long as that
lies before the stop in the direction of the step, its size is the number of such integers, and it
is empty if the step points away from the stop. -/
theorem source_form_is_irrelevant {s : Source} {items : Items} (h : s.items = .ok items) :
    (items.isCountable = true → ∃ xs listed, s.listing = some xs ∧
      (Source.value (.list xs)).items = .ok listed ∧
      (∀ c : Cursor, c.remaining items = c.remaining listed ∧
        c.isAtEnd items = c.isAtEnd listed ∧ c.next items = c.next listed) ∧
      (∀ op i forks, Forks.perform items op i forks = Forks.perform listed op i forks) ∧
      ∀ g p c, c.Placed items → c.Placed listed ∧ Parser.run g items p c = p.run g listed c ∧
        ∀ depth, p.runWithin g items depth c = p.runWithin g listed depth c) ∧
    (items.isCountable = false → ∃ r, s = .value (.range r) ∧ Items.maxCount < r.size ∧
      (∀ c : Cursor, c.remaining items = .error .uncountable ∧
        c.isAtEnd items = .error .uncountable ∧ c.next items = .error .uncountable) ∧
      ∀ forks i b, Forks.get? forks i = some b →
        forks.perform items .next i = (.refused .uncountable, forks)) ∧
    ∀ r, s = .value (.range r) →
      items = .range r ∧
      (∀ k : Nat, r.Before (r.start + k * r.step) →
        items.get? k = some (.int (r.start + k * r.step))) ∧
      (∀ k : Nat, ¬r.Before (r.start + k * r.step) → items.get? k = none) ∧
      items.size = {i : Int | r.Before i ∧ ∃ k : Nat, i = r.start + k * r.step}.ncard ∧
      (¬r.Before r.start → items.size = 0) := by
  refine ⟨fun counted => ?_, fun uncounted => ?_, ?_⟩
  · obtain ⟨xs, listing, same⟩ := Source.listing_of_items h
    have alike : ∀ k, items.get? k = (Items.values xs.toArray).get? k := fun k =>
      (same k).trans (List.getElem?_toArray ..).symm
    exact ⟨xs, .values xs.toArray, listing, rfl,
      fun c => ⟨c.remaining_congr alike counted, c.isAtEnd_congr alike counted,
        c.next_congr alike counted⟩,
      Forks.perform_congr alike counted, fun g p c hc => ⟨hc.congr alike,
        p.run_congr alike counted g hc, fun depth => p.runWithin_congr alike counted g depth hc⟩⟩
  · obtain ⟨r, rfl⟩ : ∃ r, s = .value (.range r) := by
      by_contra other
      exact Bool.noConfusion
        ((Source.isCountable_items h fun r hr => other ⟨r, hr⟩).symm.trans uncounted)
    refine ⟨r, rfl, ?_, fun c => ⟨c.remaining_of_uncountable uncounted,
      c.isAtEnd_of_uncountable uncounted, c.next_of_uncountable uncounted⟩,
      fun forks i b hb => Forks.perform_next_of_uncountable hb uncounted⟩
    cases h
    exact Nat.not_le.1 (of_decide_eq_false uncounted)
  · rintro r rfl
    cases h
    refine ⟨rfl, fun k hk => ?_, fun k hk => ?_, r.size_eq_ncard, Range.size_eq_zero_of_not_before⟩
    · rw [Items.get?, Range.get?, if_pos ((r.lt_size_iff k).2 hk)]
      rfl
    · rw [Items.get?, Range.get?, if_neg fun hlt => hk ((r.lt_size_iff k).1 hlt)]
      rfl

/-- Integers from a large one downwards, far apart, to below zero. -/
def Range.downwards : Range := ⟨10 ^ 30, -8 * 10 ^ 11, -3 * 10 ^ 11, by decide⟩

/-- The first two of them, with their span. -/
def Run.downwards : Run Cursor :=
  (Parser.withSpan (.seq .item .item)).runWithin .empty (.range .downwards) 0 .start

theorem Range.isCountable_downwards : (Items.range .downwards).isCountable = true := by decide

theorem Run.ending_downwards : Run.downwards.ending =
    .answered (.matched (.tuple [.span ⟨0, 2, by decide⟩,
      .tuple [.int (10 ^ 30), .int (10 ^ 30 - 3 * 10 ^ 11)]])) := by
  have first (c : Cursor) (h : c.position = 0) :
      c.readItem (.range .downwards) = .answer (.matched (.int (10 ^ 30))) c.advance :=
    Cursor.readItem_of_some Range.isCountable_downwards (h ▸ rfl)
  have second (c : Cursor) (h : c.position = 1) :
      c.readItem (.range .downwards) =
        .answer (.matched (.int (10 ^ 30 - 3 * 10 ^ 11))) c.advance :=
    Cursor.readItem_of_some Range.isCountable_downwards (h ▸ rfl)
  simp only [Run.downwards, Parser.runWithin, Parser.runWith, attempt]
  rw [first _ rfl]
  simp only [Run.onMatch, Run.andThen, Run.answer]
  rw [second _ rfl]
  rfl

/-- A range far too long to be listed: the step does not divide the distance to the stop, the last
item lies below zero, and two items are read as from the list. -/
theorem source_form_is_irrelevant_of_long_range :
    let items : Items := .range .downwards
    (Source.value (.range .downwards)).items = .ok items ∧ items.isCountable = true ∧
      (∃ xs listed, (Source.value (.range .downwards)).listing = some xs ∧
        (Source.value (.list xs)).items = .ok listed ∧
        ((Parser.withSpan (.seq .item .item)).runWithin .empty listed 0 .start).ending =
          .answered (.matched (.tuple [.span ⟨0, 2, by decide⟩,
            .tuple [.int (10 ^ 30), .int (10 ^ 30 - 3 * 10 ^ 11)]]))) ∧
      items.get? 3333333333333333335 = some (.int (-5 * 10 ^ 11)) ∧
      items.get? 3333333333333333336 = none ∧
      {i : Int | Range.downwards.Before i ∧
        ∃ k : Nat, i = Range.downwards.start + k * Range.downwards.step}.ncard =
          3333333333333333336 := by
  intro items
  have accepted : (Source.value (.range .downwards)).items = .ok items := rfl
  have counted : items.isCountable = true := Range.isCountable_downwards
  obtain ⟨listed, -, arithmetic⟩ := source_form_is_irrelevant accepted
  obtain ⟨xs, listed, listing, hlisted, -, -, runs⟩ := listed counted
  obtain ⟨-, inside, outside, size, -⟩ := arithmetic .downwards rfl
  obtain ⟨-, -, same⟩ :=
    runs .empty (.withSpan (.seq .item .item)) .start (Cursor.placed_start items)
  refine ⟨accepted, counted, ⟨xs, listed, listing, hlisted, ?_⟩, ?_, ?_, ?_⟩
  · rw [← same 0]
    exact Run.ending_downwards
  · exact inside 3333333333333333335 (by decide)
  · exact outside 3333333333333333336 (by decide)
  · rw [← size]
    rfl

/-- More integers than are counted. -/
def Range.overlong : Range := ⟨0, 10 ^ 30, 1, Int.one_ne_zero⟩

/-- The first item of a range that is too long to be counted is known, and it is read from the list
of its members; but from the range itself nothing is read. -/
theorem overlong_range_is_not_read :
    ∃ xs listed, (Source.value (.range .overlong)).listing = some xs ∧
      (Source.value (.list xs)).items = .ok listed ∧
      (Items.range .overlong).get? 0 = some (.int 0) ∧
      (Parser.item.runWithin .empty listed 0 .start).ending = .answered (.matched (.int 0)) ∧
      (Parser.item.runWithin .empty (.range .overlong) 0 .start).ending = .raised .uncountable := by
  have accepted : (Source.value (.range .overlong)).items = .ok (.range .overlong) := rfl
  obtain ⟨xs, listing, same⟩ := Source.listing_of_items accepted
  have first : (Items.range .overlong).get? 0 = some (.int 0) := rfl
  have read : (Items.values xs.toArray).get? Cursor.start.position = some (.int 0) := by
    rw [← first, same]
    exact List.getElem?_toArray ..
  refine ⟨xs, .values xs.toArray, listing, rfl, first, ?_, rfl⟩
  show (Cursor.start.readItem (.values xs.toArray)).ending = _
  rw [Cursor.readItem_of_some rfl read]
  rfl

end Backtrack
