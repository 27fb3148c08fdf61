import Backtrack.Proofs.Answers
import Backtrack.Proofs.Sources
import Backtrack.Proofs.Findings

/-!
# Literals

A literal matches where the items from there on equal its own, one by one.  It reads an item before
it compares it, on a fork that is given up at the first item that differs and at the end of the
input, so no partial progress is ever seen.  Two literals in order, each on a fork of its own, do
what the literal of their items does.  From items that are not counted nothing is read, so there
only an empty literal matches, and all others are refused.

* `Items.StartsAt`: the items from a place on.
* `Parser.finds_literal`: what a literal comes to.
* `literals_read_their_items`: the law, with two literals in order, and
  `equal_items_not_always_read` for items that are not counted.
-/

namespace Backtrack

/-! ### Equality with items of one kind -/

namespace Value

theorem char_beq_char (a b : CodePoint) : (char a == char b) = true ↔ a = b := by
  rw [beq_eq_same rfl, char, char, same, beq_iff_eq, List.singleton_inj]

theorem byte_beq_byte (a b : UInt8) : (byte a == byte b) = true ↔ a = b := by
  rw [beq_eq_same rfl, byte, byte, same, beq_iff_eq, Int.natCast_inj, UInt8.toNat_inj]

end Value

/-! ### Items from a place on -/

namespace Items

/-- From `i` on, the items equal those listed, one by one. -/
def StartsAt (items : Items) (i : Nat) (xs : List Value) : Prop :=
  ∀ k x, xs[k]? = some x → ∃ v, items.get? (i + k) = some v ∧ (v == x) = true

variable {items : Items} {i : Nat} {x : Value} {xs ys : List Value}

theorem startsAt_nil : items.StartsAt i [] := fun _ _ h => by cases h

theorem startsAt_cons : items.StartsAt i (x :: xs) ↔
    (∃ v, items.get? i = some v ∧ (v == x) = true) ∧ items.StartsAt (i + 1) xs := by
  constructor
  · intro h
    refine ⟨h 0 x rfl, fun k y hy => ?_⟩
    obtain ⟨v, hv, same⟩ := h (k + 1) y hy
    exact ⟨v, by rwa [Nat.add_assoc, Nat.add_comm 1 k], same⟩
  · rintro ⟨first, rest⟩ (_ | k) y hy
    · cases hy
      exact first
    · obtain ⟨v, hv, same⟩ := rest k y hy
      exact ⟨v, by rwa [Nat.add_assoc, Nat.add_comm 1 k] at hv, same⟩

theorem startsAt_append :
    items.StartsAt i (xs ++ ys) ↔ items.StartsAt i xs ∧ items.StartsAt (i + xs.length) ys := by
  induction xs generalizing i with
  | nil => exact ⟨fun h => ⟨startsAt_nil, h⟩, fun h => h.2⟩
  | cons x xs ih =>
    rw [List.cons_append, startsAt_cons, startsAt_cons, ih, and_assoc, List.length_cons,
      Nat.add_assoc, Nat.add_comm 1 xs.length]

instance (items : Items) (i : Nat) (xs : List Value) : Decidable (items.StartsAt i xs) :=
  decidable_of_iff (∀ k < xs.length, (items.get? (i + k)).any fun v => xs[k]?.any (v == ·)) <| by
    constructor
    · intro h k x hx
      have hk := h k (List.getElem?_eq_some_iff.1 hx).1
      simpa [hx, Option.any_eq_true] using hk
    · intro h k hk
      obtain ⟨v, hv, same⟩ := h k xs[k] (List.getElem?_eq_getElem hk)
      simp [hv, hk, same]

/-- In a sequence of one kind the items equal those of another list of the kind where that list is a
prefix of what is left. -/
theorem startsAt_map {α : Type} {f : α → Value} {l w : List α}
    (equal : ∀ a b, (f a == f b) = true ↔ a = b) (same : ∀ k, items.get? k = l[k]?.map f) :
    items.StartsAt i (w.map f) ↔ w <+: l.drop i := by
  rw [List.prefix_iff_getElem?]
  constructor
  · intro h k hk
    obtain ⟨v, hv, eq⟩ := h k (f w[k]) (by rw [List.getElem?_map, List.getElem?_eq_getElem hk]; rfl)
    rw [same] at hv
    obtain ⟨a, ha, rfl⟩ := Option.map_eq_some_iff.1 hv
    rw [List.getElem?_drop, ha, (equal a w[k]).1 eq]
  · intro h k x hx
    rw [List.getElem?_map] at hx
    obtain ⟨a, ha, rfl⟩ := Option.map_eq_some_iff.1 hx
    obtain ⟨hk, rfl⟩ := List.getElem?_eq_some_iff.1 ha
    refine ⟨f w[k], ?_, (equal _ _).2 rfl⟩
    rw [same, ← List.getElem?_drop, h k hk, Option.map_some]

theorem startsAt_ofText {t w : Text} :
    (ofText t).StartsAt i (w.map .char) ↔ w <+: t.drop i :=
  startsAt_map Value.char_beq_char (get?_ofText t)

theorem startsAt_ofBytes {data bytes : List UInt8} :
    (ofBytes data).StartsAt i (bytes.map .byte) ↔ bytes <+: data.drop i :=
  startsAt_map Value.byte_beq_byte (get?_ofBytes data)

/-- Two sequences with the same items are of one size. -/
theorem size_eq_length (h : ∀ k, items.get? k = xs[k]?) : items.size = xs.length := by
  refine Nat.le_antisymm ?_ ?_
  · rw [← get?_eq_none_iff, h, List.getElem?_eq_none_iff]
  · rw [← List.getElem?_eq_none_iff, ← h, get?_eq_none_iff]

end Items

/-- A source with a listing has items, which are those listed. -/
theorem Source.exists_items {s : Source} {xs : List Value} (h : s.listing = some xs) :
    ∃ items, s.items = .ok items ∧ ∀ k, items.get? k = xs[k]? := by
  obtain ⟨items, accepted⟩ : ∃ items, s.items = .ok items := by
    cases s with
    | elements xs => exact ⟨_, rfl⟩
    | value v => cases v <;> first | exact ⟨_, rfl⟩ | cases h
  obtain ⟨ys, listing, same⟩ := listing_of_items accepted
  cases h.symm.trans listing
  exact ⟨items, accepted, same⟩

/-! ### What a literal comes to -/

/-- A literal as it stands in the input.  Where items are not counted, it is refused at its first
item. -/
def Upshot.ofLiteral (items : Items) (xs : List Value) (output : Value) (i : Nat) : Upshot :=
  if items.isCountable = false ∧ xs ≠ [] then .raised .uncountable
  else if items.StartsAt i xs then .matched output (i + xs.length)
  else .declined

namespace Upshot

variable {items : Items} {xs : List Value} {output : Value} {i : Nat}

theorem ofLiteral_nil : ofLiteral items [] output i = .matched output i := by
  rw [ofLiteral, if_neg fun h => h.2 rfl, if_pos Items.startsAt_nil]
  rfl

theorem ofLiteral_of_uncountable (h : items.isCountable = false) (hx : xs ≠ []) :
    ofLiteral items xs output i = .raised .uncountable :=
  if_pos ⟨h, hx⟩

theorem ofLiteral_of_countable (h : items.isCountable = true) :
    ofLiteral items xs output i =
      if items.StartsAt i xs then .matched output (i + xs.length) else .declined :=
  if_neg (by simp [h])

theorem ofLiteral_of_startsAt (h : items.isCountable = true) (starts : items.StartsAt i xs) :
    ofLiteral items xs output i = .matched output (i + xs.length) := by
  rw [ofLiteral_of_countable h, if_pos starts]

theorem output_ofLiteral (v w : Value) :
    (ofLiteral items xs v i).output (fun _ => w) = ofLiteral items xs w i := by
  unfold ofLiteral
  split
  · rfl
  · split <;> rfl

theorem ofLiteral_of_not_startsAt (h : items.isCountable = true) (other : ¬items.StartsAt i xs) :
    ofLiteral items xs output i = .declined := by
  rw [ofLiteral_of_countable h, if_neg other]

end Upshot

/-- A literal reads on exactly if the items equal the rest of it. -/
theorem Cursor.exists_readAll_iff {items pattern : Items} (counted : items.isCountable = true)
    {xs : List Value} (same : ∀ k, pattern.get? k = xs[k]?) {k count : Nat}
    (h : k + count = xs.length) (c : Cursor) :
    (∃ d, c.readAll items pattern k count = .ok (some d)) ↔
      items.StartsAt c.position (xs.drop k) := by
  induction count generalizing k c with
  | zero =>
    have read : xs.drop k = [] := List.drop_of_length_le (by omega)
    rw [readAll, read]
    exact ⟨fun _ => Items.startsAt_nil, fun _ => ⟨c, rfl⟩⟩
  | succ count ih =>
    have hk : k < xs.length := by omega
    rw [List.drop_eq_getElem_cons hk, Items.startsAt_cons, readAll_succ counted, same,
      List.getElem?_eq_getElem hk]
    cases hv : items.get? c.position with
    | none =>
      rw [read_of_none hv]
      simp
    | some v =>
      rw [read_of_some hv]
      by_cases equal : (v == xs[k]) = true
      · simp only [equal, if_true, Option.some.injEq, exists_eq_left', true_and]
        exact ih (by omega) c.advance
      · simp [equal]

namespace Parser

variable {g : Grammar} {items : Items} {depth i : Nat}

theorem finds_literal {pattern : Items} {xs : List Value} (same : ∀ k, pattern.get? k = xs[k]?)
    (output : Value) :
    (literal pattern output).Finds g items depth i (.ofLiteral items xs output i) := by
  have size := Items.size_eq_length same
  refine finds_of_upshot (fun _ => nofun) fun hi => (Run.upshot_attempt _ _).trans ?_
  have reads (counted : items.isCountable = true) :
      (∃ d, (Cursor.point i).fork.readAll items pattern 0 xs.length = .ok (some d)) ↔
        items.StartsAt i (xs.drop 0) :=
    Cursor.exists_readAll_iff counted same (Nat.zero_add _) (Cursor.point i).fork
  rw [List.drop_zero, ← size] at reads
  unfold Cursor.readLiteral
  split
  · rename_i refused
    obtain ⟨rfl, uncounted⟩ := Cursor.uncountable_of_readAll refused
    have nonempty : xs ≠ [] := by
      rintro rfl
      rw [size] at refused
      cases refused
    rw [Upshot.ofLiteral_of_uncountable uncounted nonempty]
    rfl
  · rename_i d hd
    have position : d.position = i + xs.length := size ▸ Cursor.position_of_readAll hd
    cases counted : items.isCountable with
    | true =>
      rw [Upshot.ofLiteral_of_startsAt counted ((reads counted).1 ⟨d, hd⟩)]
      exact congrArg (Upshot.matched output) position
    | false =>
      -- without a count nothing was read, so the literal is empty
      obtain rfl : xs = [] := by
        refine List.length_eq_zero_iff.1 (size ▸ Nat.eq_zero_of_not_pos fun pos => ?_)
        obtain ⟨n, hn⟩ := Nat.exists_eq_add_one_of_ne_zero (Nat.ne_of_gt pos)
        rw [hn, Cursor.readAll_of_uncountable counted] at hd
        cases hd
      rw [Upshot.ofLiteral_nil]
      exact congrArg (Upshot.matched output) position
  · rename_i hd
    cases counted : items.isCountable with
    | true =>
      rw [Upshot.ofLiteral_of_not_startsAt counted fun starts => by
        obtain ⟨d, hd'⟩ := (reads counted).2 starts
        cases hd.symm.trans hd']
      rfl
    | false =>
      cases hsize : pattern.size with
      | zero =>
        rw [hsize] at hd
        cases hd
      | succ n =>
        rw [hsize, Cursor.readAll_of_uncountable counted] at hd
        cases hd

/-- Two literals in order stand where their items stand one after the other. -/
theorem finds_seq_literal {p q : Parser} {xs ys : List Value} {v w : Value}
    (hp : ∀ i, p.Finds g items depth i (.ofLiteral items xs v i))
    (hq : ∀ i, q.Finds g items depth i (.ofLiteral items ys w i)) :
    (seq p q).Finds g items depth i (.ofLiteral items (xs ++ ys) (.tuple [v, w]) i) := by
  have both := finds_seq (hp i) (y := fun _ j => .ofLiteral items ys w j) fun _ j _ => hq j
  suffices h : ((Upshot.ofLiteral items xs v i).andThen fun u j =>
      (Upshot.ofLiteral items ys w j).output fun w => .tuple [u, w]) =
        .ofLiteral items (xs ++ ys) (.tuple [v, w]) i by rwa [h] at both
  cases counted : items.isCountable with
  | false =>
    cases xs with
    | cons x xs => simp [Upshot.ofLiteral_of_uncountable counted]
    | nil =>
      rw [Upshot.ofLiteral_nil, Upshot.andThen_matched, List.nil_append]
      cases ys with
      | nil => simp [Upshot.ofLiteral_nil]
      | cons y ys => simp [Upshot.ofLiteral_of_uncountable counted]
  | true =>
    by_cases first : items.StartsAt i xs
    · rw [Upshot.ofLiteral_of_startsAt counted first, Upshot.andThen_matched]
      by_cases second : items.StartsAt (i + xs.length) ys
      · rw [Upshot.ofLiteral_of_startsAt counted second,
          Upshot.ofLiteral_of_startsAt counted (Items.startsAt_append.2 ⟨first, second⟩),
          List.length_append, ← Nat.add_assoc]
        rfl
      · rw [Upshot.ofLiteral_of_not_startsAt counted second,
          Upshot.ofLiteral_of_not_startsAt counted fun starts =>
            second (Items.startsAt_append.1 starts).2]
        rfl
    · rw [Upshot.ofLiteral_of_not_startsAt counted first,
        Upshot.ofLiteral_of_not_startsAt counted fun starts =>
          first (Items.startsAt_append.1 starts).1]
      rfl

end Parser

/-- Parsers that differ in their outputs alone match together and leave the stream in the same
state. -/
theorem Run.Settles.same_output {r r' : Run Cursor} {c : Cursor} {x : Upshot} {f : Value → Value}
    (h : r.Settles c x) (h' : r'.Settles c (x.output f)) :
    ((∃ o, r.ending = .answered (.matched o)) ↔ ∃ o, r'.ending = .answered (.matched o)) ∧
      r.state = r'.state := by
  cases x with
  | matched v j => exact ⟨⟨fun _ => ⟨f v, h'.1⟩, fun _ => ⟨v, h.1⟩⟩, h.2.trans h'.2.symm⟩
  | _ =>
    refine ⟨⟨?_, ?_⟩, h.2.trans h'.2.symm⟩
    · rintro ⟨o, ho⟩
      cases h.1.symm.trans ho
    · rintro ⟨o, ho⟩
      cases h'.1.symm.trans ho

/-- The literal of a source with items matches exactly where the items from there on equal those of
the source, and ends right after them; elsewhere the stream stays as it was, however many items
agree.  Over items that are not counted it is refused, unless it is empty.

The literals of two sources in order do so with the items of both, one after the other: they match
exactly where the literal of any source of all these items does, and leave the stream in the same
state. -/
theorem literals_read_their_items {u v w : Source} {xs ys : List Value} (hu : u.listing = some xs)
    (hv : v.listing = some ys) (hw : w.listing = some (xs ++ ys)) :
    ∃ a b joined, Parser.literalOf u = .ok a ∧ Parser.literalOf v = .ok b ∧
      Parser.literalOf w = .ok joined ∧
      ∀ (g : Grammar) (items : Items) (depth : Nat) (c : Cursor), c.Placed items →
        let one := a.runWithin g items depth c
        let two := (Parser.seq a b).runWithin g items depth c
        let whole := joined.runWithin g items depth c
        one.Settles c (.ofLiteral items xs u.output c.position) ∧
        two.Settles c (.ofLiteral items (xs ++ ys) (.tuple [u.output, v.output]) c.position) ∧
        ((∃ o, two.ending = .answered (.matched o)) ↔
          ∃ o, whole.ending = .answered (.matched o)) ∧
        two.state = whole.state := by
  obtain ⟨first, hfirst, sameFirst⟩ := Source.exists_items hu
  obtain ⟨second, hsecond, sameSecond⟩ := Source.exists_items hv
  obtain ⟨both, hboth, sameBoth⟩ := Source.exists_items hw
  refine ⟨.literal first u.output, .literal second v.output, .literal both w.output,
    by rw [Parser.literalOf, hfirst]; rfl, by rw [Parser.literalOf, hsecond]; rfl,
    by rw [Parser.literalOf, hboth]; rfl, fun g items depth c hc => ?_⟩
  have one (i : Nat) : (Parser.literal first u.output).Finds g items depth i _ :=
    Parser.finds_literal sameFirst u.output
  have other (i : Nat) : (Parser.literal second v.output).Finds g items depth i _ :=
    Parser.finds_literal sameSecond v.output
  have whole : (Parser.literal both w.output).Finds g items depth c.position _ :=
    Parser.finds_literal sameBoth w.output
  have two := (Parser.finds_seq_literal one other).settles hc
  rw [← Upshot.output_ofLiteral (.tuple [u.output, v.output])] at whole
  exact ⟨(one c.position).settles hc, two, two.same_output (whole.settles hc)⟩

/-- From the second item on, a stream goes on with the items of both literals; one with another last
item agrees with them up to there, and one that ends before it does so too. -/
theorem literals_read_their_items_up_to_the_last :
    let ab : Source := .value (.text (.ofChars ['a', 'b']))
    let ac : Source := .elements [.text (.ofChars ['a']), .text (.ofChars ['c'])]
    let abac : Source := .value (.text (.ofChars ['a', 'b', 'a', 'c']))
    let c := Cursor.start.advance
    ab.listing = some [.char (.ofChar 'a'), .char (.ofChar 'b')] ∧
      ac.listing = some [.char (.ofChar 'a'), .char (.ofChar 'c')] ∧
      abac.listing = some [.char (.ofChar 'a'), .char (.ofChar 'b'), .char (.ofChar 'a'),
        .char (.ofChar 'c')] ∧
      ∃ a b joined, Parser.literalOf ab = .ok a ∧ Parser.literalOf ac = .ok b ∧
        Parser.literalOf abac = .ok joined ∧
        (let items : Items := .ofText (.ofChars ['x', 'a', 'b', 'a', 'c', 'y'])
        c.Placed items ∧
          ((Parser.seq a b).runWithin .empty items 0 c).ending =
            .answered (.matched (.tuple [ab.output, ac.output])) ∧
          ((Parser.seq a b).runWithin .empty items 0 c).state =
            (joined.runWithin .empty items 0 c).state ∧
          ((Parser.seq a b).runWithin .empty items 0 c).state.position = 5) ∧
        ∀ last ∈ [['d'], []],
          let items : Items := .ofText (.ofChars (['x', 'a', 'b', 'a'] ++ last))
          c.Placed items ∧ (a.runWithin .empty items 0 c).state.position = 3 ∧
            ((Parser.seq a b).runWithin .empty items 0 c).ending = .answered .notMatched ∧
            ((Parser.seq a b).runWithin .empty items 0 c).state = c ∧
            (joined.runWithin .empty items 0 c).state = c := by
  intro ab ac abac c
  have hu : ab.listing = some [.char (.ofChar 'a'), .char (.ofChar 'b')] := rfl
  have hv : ac.listing = some [.char (.ofChar 'a'), .char (.ofChar 'c')] := rfl
  have hw : abac.listing = some ([.char (.ofChar 'a'), .char (.ofChar 'b')] ++
    [.char (.ofChar 'a'), .char (.ofChar 'c')]) := rfl
  obtain ⟨a, b, joined, ha, hb, hjoined, runs⟩ := literals_read_their_items hu hv hw
  refine ⟨hu, hv, hw, a, b, joined, ha, hb, hjoined, ?_, ?_⟩
  · intro items
    have placed : c.Placed items := ⟨rfl, by decide⟩
    obtain ⟨-, two, -, same⟩ := runs .empty items 0 c placed
    rw [Upshot.ofLiteral_of_startsAt rfl (by decide)] at two
    exact ⟨placed, two.1, same, congrArg Cursor.position two.2⟩
  · intro last hlast items
    have ends : c.position + 2 ≤ items.size ∧ items.StartsAt c.position [.char (.ofChar 'a'),
        .char (.ofChar 'b')] ∧ ¬items.StartsAt c.position ([.char (.ofChar 'a'),
        .char (.ofChar 'b')] ++ [.char (.ofChar 'a'), .char (.ofChar 'c')]) := by
      rcases List.mem_pair.1 hlast with rfl | rfl <;> decide
    have placed : c.Placed items := ⟨rfl, by omega⟩
    obtain ⟨one, two, -, same⟩ := runs .empty items 0 c placed
    rw [Upshot.ofLiteral_of_startsAt rfl ends.2.1] at one
    rw [Upshot.ofLiteral_of_not_startsAt rfl ends.2.2] at two
    exact ⟨placed, congrArg Cursor.position one.2, two.1, two.2, same.symm.trans two.2⟩

/-- A range that is too long to be counted starts with zero, but the literal of it is refused
there. -/
theorem equal_items_not_always_read :
    ∃ p, Parser.literalOf (.elements [.int 0]) = .ok p ∧
      (Items.range .overlong).StartsAt Cursor.start.position [.int 0] ∧
      (p.runWithin .empty (.range .overlong) 0 .start).ending = .raised .uncountable :=
  ⟨_, rfl, by decide, rfl⟩

end Backtrack
