import Backtrack.Grammar

/-!
# Parsers without traces

`Parser.bare` takes all traces off a parser, those in the parsers that callers' functions run or
choose included.  A trace around a choice keeps alternatives that are added to it apart from those
of the choice, and without the trace they belong to it; so a choice that starts with a choice
becomes one choice.

* `Parser.bare`, `Rule.bare`, `Grammar.bare`: the parsers, functions and definitions without traces.
* `Parser.bare_orElse`: alternatives are added to a parser without traces as to the traced one.
-/

namespace Backtrack

/-- The choice between a parser and others, which extends the parser if it is a choice. -/
def Parser.withOthers : Parser → List Parser → Parser
  | choice p ps, others => choice p (ps ++ others)
  | p, others => choice p others

mutual

/-- The parser without traces. -/
def Parser.bare : Parser → Parser
  | .literal items output => .literal items output
  | .oneOf group => .oneOf group
  | .item => .item
  | .empty => .empty
  | .atEnd => .atEnd
  | .custom rule => .custom rule.bare
  | .seq first second => .seq first.bare second.bare
  | .choice first others => first.bare.withOthers (Parser.bareAll others)
  | .optional parser => .optional parser.bare
  | .absent parser => .absent parser.bare
  | .times parser bounds => .times parser.bare bounds
  | .map parser function => .map parser.bare function
  | .withSpan parser => .withSpan parser.bare
  | .lookingAt parser peek => .lookingAt parser.bare peek.bare
  | .seqBy parser choose => .seqBy parser.bare fun v => Parser.bareChosen (choose v)
  | .lookingAtBy parser choose => .lookingAtBy parser.bare fun v => Parser.bareChosen (choose v)
  | .require parser error => .require parser.bare error
  | .reject parser error => .reject parser.bare error
  | .forgive parser => .forgive parser.bare
  | .traced parser _ => parser.bare
  | .handle number => .handle number

/-- The parsers without traces. -/
def Parser.bareAll : List Parser → List Parser
  | [] => []
  | p :: ps => p.bare :: Parser.bareAll ps

/-- The parser that a caller's function returned, without traces. -/
def Parser.bareChosen : Except Fault Parser → Except Fault Parser
  | .error f => .error f
  | .ok p => .ok p.bare

/-- A caller's function that runs its parsers without traces. -/
def Rule.bare : Rule → Rule
  | .finish o => .finish o
  | .raise f => .raise f
  | .act operation stream next => .act operation stream fun a => (next a).bare
  | .parse parser stream next => .parse parser.bare stream fun r => (next r).bare

end

/-- The definitions without traces. -/
def Grammar.bare (g : Grammar) : Grammar := ⟨g.definitions.map (·.map Parser.bare)⟩

namespace Parser

variable (p q : Parser) (ps qs : List Parser)

theorem orElse_eq_withOthers : p.orElse q = p.withOthers [q] := by
  cases p <;> rfl

theorem withOthers_orElse : (p.withOthers ps).orElse q = p.withOthers (ps ++ [q]) := by
  cases p with
  | choice r rs => exact congrArg (choice r) (List.append_assoc rs ps [q])
  | _ => rfl

theorem bareAll_eq_map : bareAll ps = ps.map bare := by
  induction ps with
  | nil => rfl
  | cons p ps ih => rw [bareAll, ih, List.map_cons]

/-- Alternatives are added to a parser without traces as they are to the parser with them. -/
theorem bare_orElse : (p.orElse q).bare = p.bare.orElse q.bare := by
  cases p with
  | choice r rs =>
    rw [orElse, bare, bare, withOthers_orElse, bareAll_eq_map, bareAll_eq_map, List.map_append,
      List.map_singleton]
  | _ => rw [orElse_eq_withOthers, orElse_eq_withOthers]; rfl

end Parser

namespace Grammar

theorem definition?_bare (g : Grammar) (n : Nat) :
    g.bare.definition? n = (g.definition? n).map Parser.bare := by
  simp only [definition?, bare, Array.getElem?_map]
  cases g.definitions[n]? <;> rfl

/-- The depth that is granted to a run does not depend on traces. -/
theorem depth_bare (g : Grammar) (items : Items) : g.bare.depth items = g.depth items := by
  rw [depth, depth, bare, Array.size_map]

end Grammar

end Backtrack
