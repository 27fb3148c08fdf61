import Backtrack.Value.Written

/-!
# Faults

A fault is a mistake in how parsers are built or used, or an exception of a caller's function.  It
is no outcome of parsing: it stops everything.  Each cause is a constructor, and
`Fault.message?` is the only place that words them.
-/

namespace Backtrack

/-- Why building or parsing was broken off. -/
inductive Fault where
  /-- A span was asked for with a negative start, or with an end before its start. -/
  | invalidSpan (start stop : Int)
  | emptyChoice
  | negativeMinimum
  | maximumBelowMinimum
  /-- A range of repetitions skips numbers. -/
  | steppedRepetitions
  /-- A maximum was given along with a range of repetitions. -/
  | maximumWithRange
  /-- Something else stands where a parser is needed. -/
  | notAParser (written : String)
  /-- A value that is no sequence of items stands where one is needed. -/
  | notASequence (v : Value)
  /-- A sequence has more items than are counted. -/
  | uncountable
  /-- A value whose bytes may still be written was to be hashed. -/
  | writableHash
  /-- A value stands where a text is needed. -/
  | notAText (v : Value)
  | unsupportedBase (base : Int)
  /-- A numeral has more digits than are converted. -/
  | tooManyDigits (count : Nat)
  /-- An unbounded repetition matched without consuming anything. -/
  | endlessRepetition
  /-- A handle was parsed before its definition was installed. -/
  | undefinedHandle
  /-- A second definition was given to a handle. -/
  | redefinedHandle
  /-- A rule named a stream that does not exist. -/
  | unknownStream (number : Nat)
  /-- A function was given a value of a shape that it does not take. -/
  | unexpectedShape (v : Value)
  /-- A caller's function raised an exception. -/
  | caller (text : String)

/-- The wording of a fault; some causes have none. -/
def Fault.message? : Fault → Option String
  | invalidSpan start stop => some s!"Invalid span: start={start}, end={stop}."
  | emptyChoice => some "At least one parser required."
  | negativeMinimum => some "The minimum amount of repetitions can't be negative."
  | maximumBelowMinimum =>
    some "The maximum amount of repetitions can't be less than the minimum."
  | steppedRepetitions => some "Repetition ranges must have a step of 1."
  | maximumWithRange => some "`at_most` can't be given along with a range."
  | notAParser written => some s!"Can't use {written} as a parser."
  | notASequence _ => none
  | uncountable => none
  | writableHash => none
  | notAText _ => none
  | unsupportedBase base => some s!"Unsupported base: {base}"
  | tooManyDigits _ => none
  | endlessRepetition =>
    some "<parser> matched without consuming anything inside an unbounded repetition."
  | undefinedHandle =>
    some ("A recursive parser must not be parsed before its definition is installed. " ++
      "(Don't call `parse` inside the function given to `recursive()`.)")
  | redefinedHandle => some "This recursive parser is already defined."
  | unknownStream _ => none
  | unexpectedShape _ => none
  | caller text => some text

end Backtrack
