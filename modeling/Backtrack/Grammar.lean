import Backtrack.Parser.Build
import Backtrack.Parser.Eval

/-!
# Grammars

A grammar holds the definitions of recursive parsers.  A handle is made first and defined later,
once; its number refers to it in parsers.  Parsing from a handle without a definition is a fault.

`Grammar.call` runs a definition with a bound on how deep handles may call one another.  Calls that
are active at one time never move backwards, so unless a handle calls itself again at the position
where it was called, there are at most as many of them as handles times positions.  That is the
bound that `Parser.run` grants: it is used up by left recursion alone.
-/

namespace Backtrack

/-- The definitions of the handles `0`, `1`, …; a handle that is still without one has `none`. -/
structure Grammar where
  definitions : Array (Option Parser)

namespace Grammar

/-- The grammar without handles. -/
def empty : Grammar := ⟨#[]⟩

/-- The definition of a handle. -/
def definition? (g : Grammar) (handle : Nat) : Option Parser := (g.definitions[handle]?).join

/-- Whether a handle has a definition. -/
def isDefined (g : Grammar) (handle : Nat) : Bool := (g.definition? handle).isSome

/-- A new handle without a definition, and the grammar that has it. -/
def fresh (g : Grammar) : Nat × Grammar := (g.definitions.size, ⟨g.definitions.push none⟩)

/-- Installs the definition of a handle, which is logged.  A handle is defined once. -/
def define (g : Grammar) (handle : Nat) (definition : Operand) : Except Fault (Grammar × Entry) :=
  if g.isDefined handle then .error .redefinedHandle
  else do
    let p ← definition.toParser
    return (⟨g.definitions.setIfInBounds handle (some p)⟩, .defined handle p.kind)

/-- Calls a handle, with `depth` calls of handles to go within it. -/
def call (g : Grammar) (items : Items) : Nat → Nat → Cursor → Run Cursor
  | 0, _, c => .exhaust c
  | depth + 1, handle, c =>
    match g.definition? handle with
    | none => .raise .undefinedHandle c
    | some p => attempt (fun tx => p.runWith items (g.call items depth) tx) c

/-- How many calls of handles can be active at one time without left recursion, and one more. -/
def depth (g : Grammar) (items : Items) : Nat := g.definitions.size * (items.size + 1) + 1

end Grammar

/-- Runs a parser from a cursor, with `depth` calls of handles to go within it. -/
def Parser.runWithin (g : Grammar) (items : Items) (depth : Nat) (p : Parser) (c : Cursor) :
    Run Cursor :=
  p.runWith items (g.call items depth) c

/-- Runs a parser from a cursor. -/
def Parser.run (g : Grammar) (items : Items) (p : Parser) (c : Cursor) : Run Cursor :=
  p.runWithin g items (g.depth items) c

end Backtrack
