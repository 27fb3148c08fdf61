import Backtrack.Grammar

/-!
# Calls in the order in which they end

The calls of parsers that a run makes, down to those that callers' functions make, each listed when
it ends.  A call is given by its parser, the stream that it was handed and the depth that it was
granted, so its run can be had from it.  Which calls come after another one is read off the run of
that one: nothing is evaluated in another way than `Parser.runWithin` does.

* `Visit`, `Visit.run`: calls and their runs.
* `Run.visitsAfter`: the calls that follow a run.
* `Parser.visits`, `Rule.visits`: the calls within a parser and within a caller's function.
* `Parser.visitsWithin`: the calls that the call of a parser makes, itself the last.
-/

namespace Backtrack

/-- The call of a parser, with `depth` calls of handles to go within it. -/
structure Visit where
  parser : Parser
  /-- The stream as it was handed to the parser. -/
  given : Cursor
  depth : Nat

/-- The run of the call. -/
def Visit.run (g : Grammar) (items : Items) (v : Visit) : Run Cursor :=
  v.parser.runWithin g items v.depth v.given

namespace Run

variable {σ : Type}

/-- The calls that follow an outcome. -/
def visitsAfter (r : Run σ) (next : Outcome → σ → List Visit) : List Visit :=
  match r.ending with
  | .answered o => next o r.state
  | _ => []

/-- The calls that follow a match. -/
def visitsOnMatch (r : Run σ) (next : Value → σ → List Visit) : List Visit :=
  r.visitsAfter fun
    | .matched v, s => next v s
    | _, _ => []

/-- The calls that follow a non-match. -/
def visitsOrElse (r : Run σ) (next : σ → List Visit) : List Visit :=
  r.visitsAfter fun
    | .notMatched, s => next s
    | _, _ => []

variable {P : Visit → Prop} {r : Run σ}

theorem forall_mem_visitsAfter {next : Outcome → σ → List Visit}
    (h : ∀ o, ∀ v ∈ next o r.state, P v) : ∀ v ∈ r.visitsAfter next, P v := by
  unfold visitsAfter
  split
  · exact h _
  · exact List.forall_mem_nil _

theorem forall_mem_visitsOnMatch {next : Value → σ → List Visit}
    (h : ∀ w, ∀ v ∈ next w r.state, P v) : ∀ v ∈ r.visitsOnMatch next, P v := by
  refine forall_mem_visitsAfter ?_
  rintro (w | _ | e)
  · exact h w
  · exact List.forall_mem_nil _
  · exact List.forall_mem_nil _

theorem forall_mem_visitsOrElse {next : σ → List Visit}
    (h : ∀ v ∈ next r.state, P v) : ∀ v ∈ r.visitsOrElse next, P v := by
  refine forall_mem_visitsAfter ?_
  rintro (w | _ | e)
  · exact List.forall_mem_nil _
  · exact h
  · exact List.forall_mem_nil _

end Run

/-- The calls that the loop of a repetition makes. -/
def visitsFrom (b : Bounds) (body : Cursor → Run Cursor) (visits : Cursor → List Visit) :
    Nat → Cursor → List Visit
  | 0, _ => []
  | budget + 1, c =>
    visits c ++ (body c).visitsOnMatch fun _ d =>
      if b.most.isNone && d.position == c.position then []
      else visitsFrom b body visits budget d

section Parsers

variable (g : Grammar) (items : Items) (depth : Nat) (calls : Nat → Cursor → List Visit)

/-- The calls within the call of a parser, and then that call. -/
def Parser.close (p : Parser) (c : Cursor) (inner : List Visit) : List Visit :=
  inner ++ [⟨p, c, depth⟩]

mutual

/-- The calls within the call of a parser; `calls` stands for those within the call of a handle. -/
def Parser.visits : Parser → Cursor → List Visit
  | .literal _ _, _ => []
  | .oneOf _, _ => []
  | .item, _ => []
  | .empty, _ => []
  | .atEnd, _ => []
  | .custom rule, c => Rule.visits rule (.single c.fork .handedIn)
  | .seq first second, c =>
    first.close depth c.fork (first.visits c.fork) ++
      (first.runWithin g items depth c.fork).visitsOnMatch fun _ tx =>
        second.close depth tx (second.visits tx)
  | .choice first others, c =>
    first.close depth c.fork.fork (first.visits c.fork.fork) ++
      (attempt (first.runWithin g items depth) c.fork).visitsOrElse (Parser.visitsFirst others)
  | .optional parser, c => parser.close depth c.fork (parser.visits c.fork)
  | .absent parser, c => parser.close depth c.fork (parser.visits c.fork)
  | .times parser bounds, c =>
    visitsFrom bounds (attempt (parser.runWithin g items depth))
      (fun tx => parser.close depth tx.fork (parser.visits tx.fork))
      (bounds.budget items c.fork) c.fork
  | .map parser _, c => parser.close depth c.fork (parser.visits c.fork)
  | .withSpan parser, c => parser.close depth c.fork (parser.visits c.fork)
  | .lookingAt parser peek, c =>
    parser.close depth c.fork (parser.visits c.fork) ++
      (parser.runWithin g items depth c.fork).visitsOnMatch fun _ tx =>
        peek.close depth tx.fork (peek.visits tx.fork)
  | .seqBy parser choose, c =>
    parser.close depth c.fork (parser.visits c.fork) ++
      (parser.runWithin g items depth c.fork).visitsOnMatch fun v tx =>
        Parser.visitsChosen (choose v) tx
  | .lookingAtBy parser choose, c =>
    parser.close depth c.fork (parser.visits c.fork) ++
      (parser.runWithin g items depth c.fork).visitsOnMatch fun v tx =>
        Parser.visitsChosen (choose v) tx.fork
  | .require parser _, c => parser.close depth c.fork (parser.visits c.fork)
  | .reject parser _, c => parser.close depth c.fork (parser.visits c.fork)
  | .forgive parser, c => parser.close depth c.fork (parser.visits c.fork)
  | .traced parser _, c => parser.close depth c (parser.visits c)
  | .handle number, c => calls number c

/-- The calls that are made while the parsers are attempted in order. -/
def Parser.visitsFirst : List Parser → Cursor → List Visit
  | [], _ => []
  | p :: ps, c =>
    p.close depth c.fork (p.visits c.fork) ++
      (attempt (p.runWithin g items depth) c).visitsOrElse (Parser.visitsFirst ps)

/-- The calls of the parser that a caller's function returned. -/
def Parser.visitsChosen : Except Fault Parser → Cursor → List Visit
  | .error _, _ => []
  | .ok p, c => p.close depth c (p.visits c)

/-- The calls that a caller's function makes. -/
def Rule.visits : Rule → Forks → List Visit
  | .finish _, _ => []
  | .raise _, _ => []
  | .act operation stream next, s =>
    (next (s.perform items operation stream).1).visits (s.perform items operation stream).2
  | .parse parser stream next, s =>
    let r := s.runOn (parser.runWithin g items depth) stream
    -- the call comes before what the function does next, also if it catches the fault of the call
    (match s.get? stream with
      | none => []
      | some b => parser.close depth b.cursor (parser.visits b.cursor)) ++
    match r.ending with
    | .exhausted => []
    | .raised f => (next (.error f)).visits r.state
    | .answered o => (next (.ok o)).visits r.state

end

end Parsers

/-- The calls within the call of a handle, with `depth` calls of handles to go within it. -/
def Grammar.visitsOfCall (g : Grammar) (items : Items) : Nat → Nat → Cursor → List Visit
  | 0, _, _ => []
  | depth + 1, handle, c =>
    match g.definition? handle with
    | none => []
    | some p => p.close depth c.fork (p.visits g items depth (g.visitsOfCall items depth) c.fork)

/-- The calls that the call of a parser makes, itself the last, with `depth` calls of handles to go
within it. -/
def Parser.visitsWithin (g : Grammar) (items : Items) (depth : Nat) (p : Parser) (c : Cursor) :
    List Visit :=
  p.close depth c (p.visits g items depth (g.visitsOfCall items depth) c)

end Backtrack
