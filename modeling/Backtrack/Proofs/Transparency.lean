import Backtrack.Parser.Bare
import Backtrack.Proofs.Alternation
import Backtrack.Proofs.Simulation
import Backtrack.Proofs.Traces

/-!
# Traces are transparent

A trace runs its parser on the very stream that it is given and hands on what the parser comes to,
so taking the traces off a parser and its grammar changes nothing but their entries in the log.  The
one thing that a trace does change is how parsers are built: it keeps a choice apart from
alternatives that are added to it.  But alternatives are tried where the choice is, so that makes no
difference either.

* `Parser.runWithin_withOthers`: a choice in front of others is one choice with them.
* `Parser.variant_bare`: a parser without traces is the parser with its traced parts exchanged.
* `Parser.mimics_bare`: the two run alike.
* `traces_are_transparent`: the law.
-/

namespace Backtrack

/-- The entry of a discarded error. -/
def Entry.discard? : Entry → Option Entry
  | discarded error position => some (.discarded error position)
  | _ => none

/-! ### Choices that start with a choice -/

section Choices

variable {g : Grammar} {items : Items} {depth : Nat} {c : Cursor}

/-- Of a choice in front of others the alternatives may be tried with the others. -/
theorem Parser.TriesInOrder.flatten {p q : Parser} {qs ps : List Parser}
    (h : p.TriesInOrder g items depth (.choice q qs :: ps) c) (hc : c.Placed items) :
    p.TriesInOrder g items depth (q :: (qs ++ ps)) c := by
  refine h.congr ?_
  rw [List.map_cons, Account.first, account_choice q qs hc.le_size, ← Account.first_append,
    ← List.map_append, List.cons_append]

theorem Parser.runWithin_withOthers (p : Parser) (ps : List Parser) (hc : c.Placed items) :
    (p.withOthers ps).runWithin g items depth c = (choice p ps).runWithin g items depth c := by
  cases p with
  | choice q qs =>
    have apart := (triesInOrder_choice g depth (choice q qs) ps hc).flatten hc
    exact ((triesInOrder_choice g depth q (qs ++ ps) hc).same apart).1
  | _ => rfl

end Choices

/-! ### Taking off the traces -/

/-- Runs over the same items, compared in everything but the entries of traces. -/
def Comparison.discards (items : Items) : Comparison where
  items := items
  items' := items
  view := Entry.discard?
  rules := True
  ends := fun _ => True
  ends_answered := fun _ => trivial
  ends_raised := fun _ _ => trivial

section Bare

variable {g : Grammar} {items : Items} {depth : Nat}

/-- The second parser, without traces in the grammar, does what the first one does. -/
def Parser.Mimics (g : Grammar) (items : Items) (depth : Nat) (p p' : Parser) : Prop :=
  ∀ c : Cursor, c.Placed items →
    (p.runWithin g items depth c).Alike Entry.discard? (p'.runWithin g.bare items depth c)

/-- Exchanging parts for parts that mimic them. -/
theorem Parser.Variant.mimics {p p' : Parser}
    (h : p.Variant (Parser.Mimics g items depth) True p') : p.Mimics g items depth p' := by
  intro c hc
  have agrees : (Comparison.discards items).Agrees (p.runWithin g items depth c)
      fun _ => p'.runWithin g.bare items depth c :=
    h.agrees (k := .discards items) (fun _ _ same c hc _ => ⟨0, fun _ _ => same c hc.placed⟩)
      (g.steady_call items depth) c (Comparison.shares_of_eq rfl hc)
  obtain ⟨enough, alike⟩ := agrees trivial
  exact alike enough (Nat.le_refl enough)

/-- A trace adds its entry to the log and nothing else. -/
theorem Parser.Mimics.traced {p p' : Parser} (h : p.Mimics g items depth p') (title : String) :
    (Parser.traced p title).Mimics g items depth p' := by
  intro c hc
  refine Run.Alike.trans ?_ (h c hc)
  show ((p.runWithin g items depth c).andThen fun o d =>
    ⟨.answered o, d, [.traced title d.span o]⟩).Alike Entry.discard? (p.runWithin g items depth c)
  cases hr : (p.runWithin g items depth c).ending with
  | exhausted =>
    rw [Run.andThen_of_exhausted hr]
    exact .refl _ _
  | raised f =>
    rw [Run.andThen_of_raised hr]
    exact .refl _ _
  | answered o =>
    rw [Run.andThen_of_answered hr]
    refine ⟨hr, rfl, ?_⟩
    rw [Run.log_after, List.filterMap_append]
    exact (List.append_nil _).symm

/-- A choice may be extended where it is the first of a choice. -/
theorem Parser.Mimics.withOthers {p q : Parser} {ps qs : List Parser}
    (h : (choice p ps).Mimics g items depth (choice q qs)) :
    (choice p ps).Mimics g items depth (q.withOthers qs) := by
  intro c hc
  rw [runWithin_withOthers q qs hc]
  exact h c hc

mutual

/-- A parser without traces is the parser with its traced parts exchanged. -/
theorem Parser.variant_bare
    (hcall : ∀ n, (Parser.handle n).Mimics g items depth (.handle n)) :
    ∀ p : Parser, p.Variant (Parser.Mimics g items depth) True p.bare
  | .literal items output => .literal items output
  | .oneOf group => .oneOf group
  | .item => .item
  | .empty => .empty
  | .atEnd => .atEnd
  | .custom rule => .custom trivial (Rule.variant_bare hcall rule)
  | .seq first second => .seq (first.variant_bare hcall) (second.variant_bare hcall)
  | .choice first others =>
    -- a choice of the same shape first, which may then take in the members of its first one
    .base (Parser.Variant.choice (first.variant_bare hcall)
      (Parser.variant_bareAll hcall others)).mimics.withOthers
  | .optional parser => .optional (parser.variant_bare hcall)
  | .absent parser => .absent (parser.variant_bare hcall)
  | .times parser bounds => .times (parser.variant_bare hcall) bounds
  | .map parser function => .map (parser.variant_bare hcall) function
  | .withSpan parser => .withSpan (parser.variant_bare hcall)
  | .lookingAt parser peek => .lookingAt (parser.variant_bare hcall) (peek.variant_bare hcall)
  | .seqBy parser choose =>
    .seqBy (parser.variant_bare hcall) fun v => Parser.variant_bareChosen hcall (choose v)
  | .lookingAtBy parser choose =>
    .lookingAtBy (parser.variant_bare hcall) fun v => Parser.variant_bareChosen hcall (choose v)
  | .require parser error => .require (parser.variant_bare hcall) error
  | .reject parser error => .reject (parser.variant_bare hcall) error
  | .forgive parser => .forgive (parser.variant_bare hcall)
  | .traced parser title => .base ((parser.variant_bare hcall).mimics.traced title)
  | .handle n => .base (hcall n)

theorem Parser.variant_bareAll
    (hcall : ∀ n, (Parser.handle n).Mimics g items depth (.handle n)) :
    ∀ ps : List Parser,
      Parser.VariantAll (Parser.Mimics g items depth) True ps (Parser.bareAll ps)
  | [] => .nil
  | p :: ps => .cons (p.variant_bare hcall) (Parser.variant_bareAll hcall ps)

theorem Parser.variant_bareChosen
    (hcall : ∀ n, (Parser.handle n).Mimics g items depth (.handle n)) :
    ∀ r : Except Fault Parser,
      Parser.VariantChosen (Parser.Mimics g items depth) True r (Parser.bareChosen r)
  | .error f => .error f
  | .ok p => .ok (p.variant_bare hcall)

theorem Rule.variant_bare
    (hcall : ∀ n, (Parser.handle n).Mimics g items depth (.handle n)) :
    ∀ rule : Rule, rule.Variant (Parser.Mimics g items depth) True rule.bare
  | .finish o => .finish o
  | .raise f => .raise f
  | .act operation stream next =>
    .act operation stream fun a => Rule.variant_bare hcall (next a)
  | .parse parser stream next =>
    .parse stream (parser.variant_bare hcall) fun r => Rule.variant_bare hcall (next r)

end

end Bare

/-- Calls of a handle do the same with traces and without. -/
theorem Grammar.mimics_handle (g : Grammar) (items : Items) (depth n : Nat) :
    (Parser.handle n).Mimics g items depth (.handle n) := by
  -- the handles in the definition have one call less, so they mimic by induction
  induction depth generalizing n with
  | zero => exact fun c _ => .refl _ _
  | succ depth ih =>
    intro c hc
    show (g.call items (depth + 1) n c).Alike _ (g.bare.call items (depth + 1) n c)
    rw [call, call, definition?_bare]
    cases g.definition? n with
    | none => exact .refl _ _
    | some p => exact Run.Alike.attempt ((p.variant_bare ih).mimics c.fork hc.fork)

/-- A parser does the same with traces and without. -/
theorem Parser.mimics_bare (g : Grammar) (items : Items) (depth : Nat) (p : Parser) :
    p.Mimics g items depth p.bare :=
  (p.variant_bare (g.mimics_handle items depth)).mimics

/-- Traces do not matter but for what they log.  Whatever traces there are in a parser and in the
grammar, those in the parsers that callers' functions run or choose included, without them the run
ends alike, leaves the stream in the same state and logs the same discarded errors; and so it does
if the traces are put in other places, also where they keep a choice apart from alternatives that
are added to it.  The depth that is granted does not depend on them either.  What the traces log are
the entries of the traced calls that returned, each with the outcome of the call, in the order in
which they did. -/
theorem traces_are_transparent (g : Grammar) {items : Items} (depth : Nat) (p : Parser) {c : Cursor}
    (hc : c.Placed items) :
    let r := p.runWithin g items depth c
    r.Alike Entry.discard? (p.bare.runWithin g.bare items depth c) ∧
    (∀ (g' : Grammar) (p' : Parser), g'.bare = g.bare → p'.bare = p.bare →
      r.Alike Entry.discard? (p'.runWithin g' items depth c) ∧ g'.depth items = g.depth items) ∧
    (∀ q q' : Parser, (q.orElse q').bare = q.bare.orElse q'.bare) ∧
    r.log.filterMap Entry.trace? =
      (p.visitsWithin g items depth c).filterMap (Visit.entry? g items) := by
  intro r
  have bare : r.Alike Entry.discard? (p.bare.runWithin g.bare items depth c) :=
    p.mimics_bare g items depth c hc
  refine ⟨bare, fun g' p' hg hp => ⟨?_, ?_⟩, Parser.bare_orElse, (p.recorded g depth hc).entries⟩
  · have other := p'.mimics_bare g' items depth c hc
    rw [hg, hp] at other
    exact bare.trans other.symm
  · rw [← g'.depth_bare, hg, g.depth_bare]

/-- The words `a`, `ba`, `bba`, …, traced as a whole and where they go on. -/
def Grammar.tracedWords : Grammar :=
  ⟨#[some (.traced ((Parser.traced (.seq (.literal (.ofText (.ofChars ['b'])) .nothing)
    (.handle 0)) "longer").orElse .letterA) "word")]⟩

/-- A required `a`, whose error is forgiven, or a word; traced, and any item added. -/
def Parser.tracedWord : Parser :=
  (Parser.traced (.choice .forgivenA [.handle 0]) "either").orElse .item

/-- Such a word. -/
def Items.tracedWord : Items := .ofText (.ofChars ['b', 'a'])

/-- What it is read as. -/
def Outcome.tracedWord : Outcome := .matched (.tuple [.nothing, .nothing])

/-- Without the trace the item is a third alternative.  The word is found in the same way, after the
error at its start is discarded; the inner word returns before the outer one. -/
theorem traces_are_transparent_in_word :
    let r := (Parser.choice .forgivenA [.handle 0, .item]).runWithin Grammar.tracedWords.bare
      .tracedWord 2 .start
    Cursor.start.Placed .tracedWord ∧
      Parser.tracedWord.bare = .choice .forgivenA [.handle 0, .item] ∧
      r.ending = .answered .tracedWord ∧
      r.log.filterMap Entry.discard? = [.discarded (.span (.point 0)) 0] ∧
      (Parser.tracedWord.visitsWithin .tracedWords .tracedWord 2 .start).filterMap
          (Visit.entry? .tracedWords .tracedWord) =
        [.traced "longer" (.point 1) .notMatched,
          .traced "word" ((Span.point 1).upTo 2) (.matched .nothing),
          .traced "longer" ((Span.point 0).upTo 2) .tracedWord,
          .traced "word" ((Span.point 0).upTo 2) .tracedWord,
          .traced "either" ((Span.point 0).upTo 2) .tracedWord] := by
  intro r
  have placed := Cursor.placed_start .tracedWord
  have bare : Parser.tracedWord.bare = .choice .forgivenA [.handle 0, .item] := rfl
  obtain ⟨alike, -, -, entries⟩ := traces_are_transparent .tracedWords 2 .tracedWord placed
  rw [bare] at alike
  have ending : (Parser.tracedWord.runWithin .tracedWords .tracedWord 2 .start).ending =
      .answered .tracedWord := rfl
  exact ⟨placed, bare, alike.ending.trans ending, alike.log.trans rfl, entries.symm.trans rfl⟩

end Backtrack
