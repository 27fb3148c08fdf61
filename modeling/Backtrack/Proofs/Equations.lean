import Backtrack.Proofs.Alternation
import Backtrack.Proofs.Lookahead
import Backtrack.Value.Parts

/-!
# Equations between parsers

Two ways of writing a parser that come to the same.  A common first part can be taken out of the
alternatives of a choice: it is read once instead of once for each alternative, and its progress is
kept while the alternatives are tried.  A lookahead is a double negation, and it can be chosen by a
function as well as given.

* `left_factoring_preserves_runs`: the common first part of alternatives.
* `lookahead_forms_agree`: three forms of looking ahead.
-/

namespace Backtrack

namespace Upshot

/-- What comes first is settled before the alternatives that follow are.  One at least must follow,
since no alternatives decline. -/
theorem andThen_first {α : Type} (x : Upshot) (next : α → Value → Nat → Upshot) (a : α)
    (as : List α) :
    (x.andThen fun v j => first ((a :: as).map fun b => next b v j)) =
      first ((a :: as).map fun b => x.andThen (next b)) := by
  cases x
  case declined => exact (first_map_declined (a :: as)).symm
  all_goals rfl

/-- Negated twice, a match keeps neither output nor progress. -/
theorem negate_negate (x : Upshot) (i : Nat) :
    (x.negate i).negate i = x.andThen fun _ _ => matched .nothing i := by
  cases x <;> rfl

end Upshot

section Parsers

variable {g : Grammar} {items : Items} {depth i : Nat} {c : Cursor}

namespace Parser

/-- A common first part, before the choice or in each alternative. -/
theorem upshot_seq_choice (a b : Parser) (cs : List Parser) (hi : i ≤ items.size) :
    (seq a (choice b cs)).upshot g items depth i =
      (choice (seq a b) (cs.map (seq a))).upshot g items depth i := by
  calc (seq a (choice b cs)).upshot g items depth i
    _ = (a.upshot g items depth i).andThen fun v j =>
          ((choice b cs).upshot g items depth j).output fun w => .tuple [v, w] := upshot_seq hi
    _ = (a.upshot g items depth i).andThen fun v j =>
          .first ((b :: cs).map fun q =>
            (q.upshot g items depth j).output fun w => .tuple [v, w]) :=
        a.upshot_andThen_congr hi fun v j _ hj => by
          rw [upshot_choice b cs hj, Upshot.output_first, List.map_map]
          rfl
    _ = .first ((b :: cs).map fun q => (a.upshot g items depth i).andThen fun v j =>
          (q.upshot g items depth j).output fun w => .tuple [v, w]) :=
        Upshot.andThen_first _ _ b cs
    _ = .first (((b :: cs).map (seq a)).map fun q => q.upshot g items depth i) := by
        rw [List.map_map]
        exact congrArg Upshot.first (List.map_congr_left fun q _ => (upshot_seq hi).symm)
    _ = (choice (seq a b) (cs.map (seq a))).upshot g items depth i :=
        (upshot_choice (seq a b) (cs.map (seq a)) hi).symm

/-- A lookahead as a double negation, whose output is dropped. -/
theorem upshot_lookingAt_eq_absent_absent (a b : Parser) (hi : i ≤ items.size) :
    (lookingAt a b).upshot g items depth i =
      (map (seq a (absent (absent b))) (Value.part 0)).upshot g items depth i := by
  rw [upshot_lookingAt hi, upshot_map, upshot_seq hi, Upshot.andThen_andThen]
  refine a.upshot_andThen_congr hi fun v j _ hj => ?_
  rw [upshot_absent hj, upshot_absent hj, Upshot.negate_negate]
  rcases b.upshot g items depth j <;> rfl

end Parser

end Parsers

/-- A common first part of the alternatives of a choice can be read once, before the choice: both
forms end alike on every stream and leave it in the same state. -/
theorem left_factoring_preserves_runs (g : Grammar) {items : Items} (depth : Nat) (a b : Parser)
    (cs : List Parser) {c : Cursor} (hc : c.Placed items) :
    ((Parser.seq a (.choice b cs)).runWithin g items depth c).SameEffect
      ((Parser.choice (.seq a b) (cs.map (.seq a))).runWithin g items depth c) :=
  Parser.sameEffect_of_upshot (fun _ => nofun) (fun _ => nofun) hc
    (Parser.upshot_seq_choice a b cs hc.le_size)

/-- From the second item on, a function that commits and declines is the first alternative after any
item; the second one is tried where the item ends, in both forms. -/
theorem left_factoring_preserves_runs_after_commit :
    let items : Items := .ofText (.ofChars ['x', 'a', 'b'])
    let c := Cursor.start.advance
    let declines : Parser := .custom .commitAndDecline
    let factored := (Parser.seq .item (.choice declines [.item])).runWithin .empty items 0 c
    let expanded :=
      (Parser.choice (.seq .item declines) [.seq .item .item]).runWithin .empty items 0 c
    c.Placed items ∧ factored.SameEffect expanded ∧
      factored.ending = .answered
        (.matched (.tuple [.char (CodePoint.ofChar 'a'), .char (CodePoint.ofChar 'b')])) ∧
      factored.state.position = 3 := by
  intro items c declines factored expanded
  have placed : c.Placed items := ⟨rfl, by decide⟩
  have same := left_factoring_preserves_runs .empty 0 .item declines [.item] placed
  exact ⟨placed, same, rfl, by decide +kernel⟩

/-- To look ahead with a parser, with one that a function chooses where the choice is always this
parser, and with its double negation is the same: all three end alike on every stream and leave it
in the same state.  The operand that the function returns becomes a parser only when it is used. -/
theorem lookahead_forms_agree (g : Grammar) {items : Items} (depth : Nat) (a b : Parser)
    (operand : Operand) (converted : operand.toParser = .ok b) {c : Cursor} (hc : c.Placed items) :
    ((Parser.lookingAt a b).runWithin g items depth c).SameEffect
        ((Parser.lookingAtByOperand a fun _ => .ok operand).runWithin g items depth c) ∧
      ((Parser.lookingAt a b).runWithin g items depth c).SameEffect
        ((Parser.map (.seq a (.absent (.absent b))) (Value.part 0)).runWithin g items depth c) := by
  have chosen : (Parser.lookingAtByOperand a fun _ => .ok operand).upshot g items depth c.position =
      (Parser.lookingAt a b).upshot g items depth c.position :=
    (Parser.upshot_lookingAtBy hc.le_size fun _ => converted).trans
      (Parser.upshot_lookingAt hc.le_size).symm
  constructor
  · exact Parser.sameEffect_of_upshot (fun _ => nofun) (fun _ => nofun) hc chosen.symm
  · exact Parser.sameEffect_of_upshot (fun _ => nofun) (fun _ => nofun) hc
      (Parser.upshot_lookingAt_eq_absent_absent a b hc.le_size)

/-- From the second item on, two items are looked at after one by a function that reads and commits
them.  No form of looking ahead takes them. -/
theorem lookahead_forms_agree_on_two :
    let items : Items := .ofText (.ofChars ['x', 'a', 'b', 'c'])
    let c := Cursor.start.advance
    let two : Parser := .custom .takeTwo
    let operand : Operand := .function .takeTwo
    let looked := (Parser.lookingAt .item two).runWithin .empty items 0 c
    let chosen := (Parser.lookingAtByOperand .item fun _ => .ok operand).runWithin .empty items 0 c
    let negated :=
      (Parser.map (.seq .item (.absent (.absent two))) (Value.part 0)).runWithin .empty items 0 c
    operand.toParser = .ok two ∧ c.Placed items ∧ looked.SameEffect chosen ∧
      looked.SameEffect negated ∧
      looked.ending = .answered (.matched (.char (CodePoint.ofChar 'a'))) ∧
      looked.state.position = 2 := by
  intro items c two operand looked chosen negated
  have placed : c.Placed items := ⟨rfl, by decide⟩
  obtain ⟨byChoice, byNegation⟩ := lookahead_forms_agree .empty 0 .item two operand rfl placed
  exact ⟨rfl, placed, byChoice, byNegation, rfl, by decide +kernel⟩

end Backtrack
