import Backtrack.Forks

/-!
# Parsers

A parser is a tree of combinators.  Recursion goes through numbered handles, whose definitions are
kept apart (`Backtrack.Grammar`), so every tree is finite.  Where a caller's function stands, the
tree holds a function: on outputs (`map`), on outputs with a parser as result (`seqBy`,
`lookingAtBy`), on spans (`require`, `reject`), and in the form of a `Rule` on streams.

A rule is what a caller's function does with the stream it is given: a tree of operations on that
stream and its forks, each continued by a function of the answer.
-/

namespace Backtrack

/-- How often a repetition may match; no `most` means any number of times. -/
structure Bounds where
  least : Nat
  most : Option Nat
  least_le_most : ∀ m ∈ most, least ≤ m

namespace Bounds

/-- At least `n` times. -/
def atLeast (n : Nat) : Bounds := ⟨n, none, by simp⟩

/-- Exactly `n` times. -/
def exactly (n : Nat) : Bounds := ⟨n, some n, by simp⟩

/-- The bounds that a caller gives as integers. -/
def ofInts (least : Int) (most : Option Int) : Except Fault Bounds :=
  if hl : least < 0 then .error .negativeMinimum
  else
    match most with
    | none => .ok (atLeast least.toNat)
    | some m =>
      if hm : m < least then .error .maximumBelowMinimum
      else .ok ⟨least.toNat, some m.toNat, by simp; omega⟩

/-- The bounds that a caller gives as a range of numbers of repetitions. -/
def ofRange (r : Range) (most : Option Int) : Except Fault Bounds :=
  if most.isSome then .error .maximumWithRange
  else if r.step ≠ 1 then .error .steppedRepetitions
  else ofInts r.start (some (r.stop - 1))

end Bounds

mutual

/-- A parser. -/
inductive Parser where
  /-- The items in order; the output is given. -/
  | literal (items : Items) (output : Value)
  /-- One item that equals a member of the group. -/
  | oneOf (group : Items)
  /-- Any one item. -/
  | item
  /-- Nothing, which always matches. -/
  | empty
  /-- The end of the input. -/
  | atEnd
  /-- A caller's function, run on a fork. -/
  | custom (rule : Rule)
  /-- Both in order; the output is the pair. -/
  | seq (first second : Parser)
  /-- The first that does not decline. -/
  | choice (first : Parser) (others : List Parser)
  /-- Matches in any case, with nothing as the output if the parser declines. -/
  | optional (parser : Parser)
  /-- Matches exactly if the parser declines; never consumes. -/
  | absent (parser : Parser)
  | times (parser : Parser) (bounds : Bounds)
  | map (parser : Parser) (function : Value → Except Fault Value)
  /-- The output along with the span of what was consumed. -/
  | withSpan (parser : Parser)
  /-- The first, if the second matches after it. -/
  | lookingAt (parser peek : Parser)
  /-- The parser, then the one that its output chooses. -/
  | seqBy (parser : Parser) (choose : Value → Except Fault Parser)
  /-- The parser, if the one that its output chooses matches after it. -/
  | lookingAtBy (parser : Parser) (choose : Value → Except Fault Parser)
  /-- Fails where the parser declines. -/
  | require (parser : Parser) (error : Span → Except Fault Value)
  /-- Fails where the parser matches; never consumes. -/
  | reject (parser : Parser) (error : Span → Value → Except Fault Value)
  /-- Declines where the parser fails. -/
  | forgive (parser : Parser)
  /-- Logs what the parser came to. -/
  | traced (parser : Parser) (title : String)
  /-- The parser that a handle is defined as. -/
  | handle (number : Nat)

/-- What a caller's function does with its stream, which has number `0`. -/
inductive Rule where
  | finish (outcome : Outcome)
  | raise (fault : Fault)
  | act (operation : Operation) (stream : Nat) (next : Answer → Rule)
  /-- Parses from a stream; the function may handle a fault. -/
  | parse (parser : Parser) (stream : Nat) (next : Except Fault Outcome → Rule)

end

namespace Parser

instance : Inhabited Parser := ⟨empty⟩

/-- The name of a parser's combinator, as the log gives it. -/
def kind : Parser → String
  | literal .. => "Exact"
  | oneOf .. => "OneOf"
  | item => "AnyItem"
  | empty => "Nil"
  | atEnd => "End"
  | custom .. => "FnParser"
  | seq .. => "Then"
  | choice .. => "Choice"
  | optional .. => "Opt"
  | absent .. => "Not"
  | times .. => "Repeated"
  | map .. => "Map"
  | withSpan .. => "Spanned"
  | lookingAt .. => "ThenPeek"
  | seqBy .. => "ThenWith"
  | lookingAtBy .. => "ThenPeekWith"
  | require .. => "OrError"
  | reject .. => "ThenError"
  | forgive .. => "DiscardError"
  | traced .. => "Dbg"
  | handle .. => "Recursive"

end Parser

namespace Rule

/-- Goes on with `next` in any case. -/
def perform (operation : Operation) (stream : Nat) (next : Rule) : Rule :=
  .act operation stream fun
    | .refused f => .raise f
    | _ => next

/-- Parses from a stream and lets a fault pass. -/
def parseOn (parser : Parser) (stream : Nat) (next : Outcome → Rule) : Rule :=
  .parse parser stream fun
    | .error f => .raise f
    | .ok o => next o

/-- Parses from a fork of a stream: the fork is committed if the parser matches, and closed. -/
def attemptOn (parser : Parser) (stream : Nat) (next : Outcome → Rule) : Rule :=
  .act .fork stream fun
    | .opened fork =>
      .parse parser fork fun
        | .error f => perform .abort fork (.raise f)
        | .ok o =>
          let closing := perform .close fork (next o)
          if o.isMatched then perform .commit fork closing else closing
    | .refused f => .raise f
    | _ => .finish .notMatched

end Rule

end Backtrack
