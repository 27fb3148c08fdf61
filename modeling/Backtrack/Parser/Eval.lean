import Backtrack.Parser.Repetition

/-!
# Running parsers

`Parser.runWith` runs a parser from a cursor, given what calling a handle means.  It is structural:
handles are the only recursion of a grammar.  Every combinator but four works in a fork of the
stream it is given, which it merges exactly if it matches (`attempt`), or never (`probe`); a single
item and a trace use the stream itself, nothing leaves it alone, and a caller's function decides by
its own flag.
-/

namespace Backtrack

namespace Cursor

/-- Reads one item, whatever it is. -/
def readItem (items : Items) (c : Cursor) : Run Cursor :=
  match c.next items with
  | .error f => .raise f c
  | .ok (some v, c') => .answer (.matched v) c'
  | .ok (none, c') => .answer .notMatched c'

theorem readItem_of_countable {items : Items} (h : items.isCountable = true) (c : Cursor) :
    c.readItem items =
      .answer ((c.read items).1.elim .notMatched .matched) (c.read items).2 := by
  rw [readItem, next_of_countable h]
  rcases c.read items with ⟨_ | v, d⟩ <;> rfl

theorem readItem_of_uncountable {items : Items} (h : items.isCountable = false) (c : Cursor) :
    c.readItem items = .raise .uncountable c := by
  rw [readItem, next_of_uncountable h]

theorem readItem_of_some {items : Items} (h : items.isCountable = true) {c : Cursor} {v : Value}
    (hv : items.get? c.position = some v) :
    c.readItem items = .answer (.matched v) c.advance := by
  rw [readItem_of_countable h, read_of_some hv]
  rfl

theorem readItem_of_none {items : Items} (h : items.isCountable = true) {c : Cursor}
    (hv : items.get? c.position = none) : c.readItem items = .answer .notMatched c := by
  rw [readItem_of_countable h, read_of_none hv]
  rfl

/-- Reading an item moves by it, or the input ends, or reading is refused. -/
theorem readItem_cases (items : Items) (c : Cursor) :
    (∃ v, items.get? c.position = some v ∧ c.readItem items = .answer (.matched v) c.advance) ∨
      (items.get? c.position = none ∧ c.readItem items = .answer .notMatched c) ∨
      items.isCountable = false ∧ c.readItem items = .raise .uncountable c := by
  cases counted : items.isCountable with
  | false => exact .inr (.inr ⟨rfl, readItem_of_uncountable counted c⟩)
  | true =>
    cases hv : items.get? c.position with
    | none => exact .inr (.inl ⟨rfl, readItem_of_none counted hv⟩)
    | some v => exact .inl ⟨v, rfl, readItem_of_some counted hv⟩

/-- Reads one item that a group contains. -/
def readMember (items group : Items) (c : Cursor) : Run Cursor :=
  (c.readItem items).reply fun
    | .matched v, _ => (group.lookup v).map fun found => if found then .matched v else .notMatched
    | o, _ => .ok o

/-- Reads the items of a literal. -/
def readLiteral (items pattern : Items) (output : Value) (c : Cursor) : Run Cursor :=
  match c.readAll items pattern 0 pattern.size with
  | .error f => .raise f c
  | .ok (some c') => .answer (.matched output) c'
  | .ok none => .answer .notMatched c

end Cursor

/-- Ends a caller's function that ran on a fork of `c`: the fork is merged if the function matched
or left it committed.  If it did not return, only what it merged itself remains. -/
def closeFunction (c : Cursor) (r : Run Forks) : Run Cursor :=
  match r.ending, r.state.get? 0 with
  | .answered o, some given =>
    r.withState (if o.isMatched || given.committed then c.merge given.cursor else given.outer c)
  | _, some given => r.withState (given.outer c)
  | _, none => r.withState c

mutual

/-- Runs a parser from a cursor; `call` runs the definition of a handle. -/
def Parser.runWith (items : Items) (call : Nat → Cursor → Run Cursor) :
    Parser → Cursor → Run Cursor
  | .literal pattern output, c => attempt (fun tx => tx.readLiteral items pattern output) c
  | .oneOf group, c => attempt (fun tx => tx.readMember items group) c
  | .item, c => c.readItem items
  | .empty, c => .answer (.matched .nothing) c
  | .atEnd, c =>
    (probe (fun tx => tx.readItem items) c).reply fun o _ =>
      .ok (if o.isMatched then .notMatched else .matched .nothing)
  | .custom rule, c =>
    closeFunction c (rule.runWith items call (.single c.fork .handedIn))
  | .seq first second, c =>
    attempt (fun tx => (first.runWith items call tx).onMatch fun v tx =>
      (second.runWith items call tx).output fun w _ => .ok (.tuple [v, w])) c
  | .choice first others, c =>
    attempt (fun tx => (attempt (fun tx => first.runWith items call tx) tx).orElse fun tx =>
      Parser.runFirst items call others tx) c
  | .optional parser, c =>
    (attempt (fun tx => parser.runWith items call tx) c).orElse fun c =>
      .answer (.matched .nothing) c
  | .absent parser, c =>
    (probe (fun tx => parser.runWith items call tx) c).reply fun
      | .matched _, _ => .ok .notMatched
      | .notMatched, _ => .ok (.matched .nothing)
      | .failed e, _ => .ok (.failed e)
  | .times parser bounds, c =>
    attempt (fun tx => repeatFrom bounds
      (attempt fun tx => parser.runWith items call tx) (bounds.budget items tx) [] [] tx) c
  | .map parser function, c =>
    attempt (fun tx => (parser.runWith items call tx).output fun v _ => function v) c
  | .withSpan parser, c =>
    attempt (fun tx => (parser.runWith items call tx).output fun v tx =>
      .ok (.tuple [.span tx.span, v])) c
  | .lookingAt parser peek, c =>
    attempt (fun tx => (parser.runWith items call tx).onMatch fun v tx =>
      (probe (fun tx => peek.runWith items call tx) tx).output fun _ _ => .ok v) c
  | .seqBy parser choose, c =>
    attempt (fun tx => (parser.runWith items call tx).onMatch fun v tx =>
      (Parser.runChosen items call (choose v) tx).output fun w _ => .ok (.tuple [v, w])) c
  | .lookingAtBy parser choose, c =>
    attempt (fun tx => (parser.runWith items call tx).onMatch fun v tx =>
      (probe (fun tx => Parser.runChosen items call (choose v) tx) tx).output fun _ _ =>
        .ok v) c
  | .require parser error, c =>
    attempt (fun tx => (parser.runWith items call tx).reply fun
      | .notMatched, tx => (error tx.span).map .failed
      | o, _ => .ok o) c
  | .reject parser error, c =>
    probe (fun tx => (parser.runWith items call tx).reply fun
      | .matched v, tx => (error tx.span v).map .failed
      | o, _ => .ok o) c
  | .forgive parser, c =>
    (attempt (fun tx => parser.runWith items call tx) c).andThen fun
      | .failed e, c => ⟨.answered .notMatched, c, [.discarded e c.position]⟩
      | o, c => .answer o c
  | .traced parser title, c =>
    (parser.runWith items call c).andThen fun o c =>
      ⟨.answered o, c, [.traced title c.span o]⟩
  | .handle number, c => call number c

/-- Attempts the parsers in order, up to the first that does not decline. -/
def Parser.runFirst (items : Items) (call : Nat → Cursor → Run Cursor) :
    List Parser → Cursor → Run Cursor
  | [], c => .answer .notMatched c
  | p :: ps, c =>
    (attempt (fun tx => p.runWith items call tx) c).orElse fun c =>
      Parser.runFirst items call ps c

/-- Runs the parser that a caller's function returned. -/
def Parser.runChosen (items : Items) (call : Nat → Cursor → Run Cursor) :
    Except Fault Parser → Cursor → Run Cursor
  | .error f, c => .raise f c
  | .ok p, c => p.runWith items call c

/-- Runs a rule on the streams it has opened so far. -/
def Rule.runWith (items : Items) (call : Nat → Cursor → Run Cursor) : Rule → Forks → Run Forks
  | .finish o, s => .answer o s
  | .raise f, s => .raise f s
  | .act operation stream next, s =>
    (next (s.perform items operation stream).1).runWith items call
      (s.perform items operation stream).2
  | .parse parser stream next, s =>
    let r := s.runOn (fun c => parser.runWith items call c) stream
    match r.ending with
    | .exhausted => r
    | .raised f => ((next (.error f)).runWith items call r.state).after r.log
    | .answered o => ((next (.ok o)).runWith items call r.state).after r.log

end

end Backtrack
