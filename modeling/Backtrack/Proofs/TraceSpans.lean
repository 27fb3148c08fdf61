import Backtrack.Proofs.Rollback
import Backtrack.Proofs.Tiling
import Backtrack.Proofs.Traces

/-!
# The spans that traces log

A trace reads the span of the stream that it was handed.  It opens no stream of its own, so the span
begins where the combinator around it opened one, with what that combinator had read before; that is
the span of the traced parser just if the stream still stood where it was opened.  A parser with its
span does open a stream of its own, and so its span always begins where it was called.

* `Cursor.AtOpening`: streams that stand where they were opened.
* `Visit.Spans`: what the span that a traced call logs is.
* `Parser.spans_of_visit`: every traced call that returns logs such a span.
* `Parser.traced_second_of_seq`: where a trace comes second in a sequence, the span begins with the
  sequence.
* `Parser.TracesLead`: grammars where every trace is called on a stream that was just opened.
* `traces_span_from_opening`: the law.
-/

namespace Backtrack

namespace Cursor

variable {items : Items} {c d : Cursor}

/-- The stream stands where it was opened: nothing was read since. -/
def AtOpening (c : Cursor) : Prop := c.span.start = c.position

theorem Placed.atOpening_fork (h : c.Placed items) : c.fork.AtOpening := h.sound.symm

/-- A stream that stood where it was opened still does just if it has not moved. -/
theorem Extends.atOpening_iff (h : c.Extends items d) (hc : c.AtOpening) :
    d.AtOpening ↔ d.position = c.position := by
  rw [AtOpening, h.start_eq, hc, eq_comm]

end Cursor

section Parsers

variable {g : Grammar} {items : Items} {depth : Nat} {p : Parser} {title : String} {c : Cursor}

/-- A traced parser ends as it does without the trace, and at the same place. -/
theorem Parser.runWithin_traced (g : Grammar) (items : Items) (depth : Nat) (p : Parser)
    (title : String) (c : Cursor) :
    ((Parser.traced p title).runWithin g items depth c).ending =
        (p.runWithin g items depth c).ending ∧
      ((Parser.traced p title).runWithin g items depth c).state =
        (p.runWithin g items depth c).state := by
  obtain ⟨outer, left⟩ := (Parser.traced p title).runWith_untraced items (g.call items depth) c
  obtain ⟨inner, stood⟩ := p.runWith_untraced items (g.call items depth) c
  exact ⟨outer.trans inner.symm, left.trans stood.symm⟩

/-- `s` is the span that goes with the match `w` of the parser: it begins where the parser was
called and ends where the parser left the stream. -/
structure Parser.MatchSpan (g : Grammar) (items : Items) (depth : Nat) (p : Parser) (c : Cursor)
    (w : Value) (s : Span) : Prop where
  start_eq : s.start = c.position
  stop_eq : s.stop = (p.runWithin g items depth c).state.position
  reported : ((Parser.withSpan p).runWithin g items depth c).ending =
    .answered (.matched (.tuple [.span s, w]))

theorem Parser.exists_matchSpan (hc : c.Placed items) {w : Value}
    (h : (p.runWithin g items depth c).ending = .answered (.matched w)) :
    ∃ s, p.MatchSpan g items depth c w s := by
  obtain ⟨hle, reported, -⟩ := Parser.ending_withSpan_of_matched hc h
  exact ⟨⟨_, _, hle⟩, rfl, rfl, reported⟩

/-- What the span `s` is that the traced call of `q` logs with the outcome `o`. -/
structure Visit.Spans (g : Grammar) (items : Items) (v : Visit) (q : Parser) (o : Outcome)
    (s : Span) : Prop where
  /-- It begins where the stream that the call was handed was opened, … -/
  start_eq : s.start = v.given.span.start
  /-- … and ends where the call left that stream. -/
  stop_eq : s.stop = (q.runWithin g items v.depth v.given).state.position
  /-- It is the span of a match just if the stream stood where it was opened. -/
  of_matched : ∀ w, o = .matched w →
    ∃ s', q.MatchSpan g items v.depth v.given w s' ∧ (s = s' ↔ v.given.AtOpening)
  /-- Without a match it ends where the call was made, and is empty just if the stream stood where
  it was opened. -/
  of_unmatched : o.isMatched = false → q.Contained g →
    s.stop = v.given.position ∧ (s = .point v.given.position ↔ v.given.AtOpening)

/-- Every traced call on a placed stream that returns logs such a span. -/
theorem Parser.spans_of_visit {v : Visit} {o : Outcome} (hv : v.parser = .traced p title)
    (hc : v.given.Placed items)
    (h : (p.runWithin g items v.depth v.given).ending = .answered o) :
    ∃ s, v.entry? g items = some (.traced title s o) ∧ v.Spans g items p o s := by
  obtain ⟨parser, c, depth⟩ := v
  obtain rfl : parser = .traced p title := hv
  dsimp only at hc h
  obtain ⟨ending, left⟩ := Parser.runWithin_traced g items depth p title c
  have later := p.extends_runWithin g depth hc
  have entry : Visit.entry? g items ⟨.traced p title, c, depth⟩ =
      some (.traced title (p.runWithin g items depth c).state.span o) := by
    rw [Visit.entry?, Visit.run, ending, h, left]
  refine ⟨_, entry, later.start_eq, later.placed.sound.symm, fun w hw => ?_, fun ho hp => ?_⟩
  · obtain ⟨s, span⟩ := Parser.exists_matchSpan hc (h.trans (congrArg _ hw))
    refine ⟨s, span, fun same => ?_, fun opening => Span.ext ?_ ?_⟩
    · rw [Cursor.AtOpening, ← later.start_eq, same, span.start_eq]
    · rw [later.start_eq, opening, span.start_eq]
    · rw [← later.placed.sound, span.stop_eq]
  · -- the stream is as it was handed, and its span with it
    have stays : (p.runWithin g items depth c).state = c :=
      hp.state_eq hc fun w hw => by
        obtain rfl : o = .matched w := by simpa [h] using hw
        cases ho
    rw [stays]
    refine ⟨hc.sound.symm, fun same => ?_, fun opening => Span.ext opening hc.sound.symm⟩
    exact congrArg Span.start same

/-- A trace that comes second in a sequence is handed the stream that the sequence opened.  So its
span begins with the sequence, and is that of the traced parser only if the first parser consumed
nothing. -/
theorem Parser.traced_second_of_seq {first : Parser} (hc : c.Placed items) {w : Value}
    (h : (first.runWithin g items depth c.fork).ending = .answered (.matched w)) :
    let d := (first.runWithin g items depth c.fork).state
    ⟨.traced p title, d, depth⟩ ∈
        (Parser.seq first (.traced p title)).visitsWithin g items depth c ∧
      d.span.start = c.position ∧ (d.AtOpening ↔ d.position = c.position) := by
  intro d
  have later := first.extends_runWithin g depth hc.fork
  refine ⟨?_, later.start_eq.trans hc.atOpening_fork, later.atOpening_iff hc.atOpening_fork⟩
  rw [visitsWithin, visits, Run.visitsOnMatch, Run.visitsAfter, h]
  simp [close, d]

end Parsers

/-! ### Traces that lead -/

mutual

/-- No trace in the parser is called where something may have been read from the stream before: none
is second in a sequence, chosen to go on after a match, or run by a caller's function, unless within
another parser.  All other parsers are called on streams that were opened for them. -/
def Parser.TracesLead : Parser → Prop
  | .literal _ _ | .oneOf _ | .item | .empty | .atEnd | .handle _ => True
  | .custom rule => rule.TracesLead
  | .seq first second =>
    first.TracesLead ∧ second.TracesLead ∧ ∀ q title, second ≠ .traced q title
  | .choice first others => first.TracesLead ∧ Parser.TracesLeadAll others
  | .optional parser | .absent parser | .times parser _ | .map parser _ | .withSpan parser
  | .require parser _ | .reject parser _ | .forgive parser | .traced parser _ => parser.TracesLead
  | .lookingAt parser peek => parser.TracesLead ∧ peek.TracesLead
  | .seqBy parser choose =>
    parser.TracesLead ∧
      ∀ v, Parser.TracesLeadChosen (choose v) ∧ ∀ q title, choose v ≠ .ok (.traced q title)
  | .lookingAtBy parser choose =>
    parser.TracesLead ∧ ∀ v, Parser.TracesLeadChosen (choose v)

def Parser.TracesLeadAll : List Parser → Prop
  | [] => True
  | p :: ps => p.TracesLead ∧ Parser.TracesLeadAll ps

def Parser.TracesLeadChosen : Except Fault Parser → Prop
  | .error _ => True
  | .ok p => p.TracesLead

def Rule.TracesLead : Rule → Prop
  | .finish _ | .raise _ => True
  | .act _ _ next => ∀ a, (next a).TracesLead
  | .parse parser _ next =>
    parser.TracesLead ∧ (∀ q title, parser ≠ .traced q title) ∧ ∀ r, (next r).TracesLead

end

def Grammar.TracesLead (g : Grammar) : Prop := ∀ n p, g.definition? n = some p → p.TracesLead

/-- A call that, if it is traced, is handed a stream that stands where it was opened. -/
def Visit.Leads (v : Visit) : Prop := ∀ q title, v.parser = .traced q title → v.given.AtOpening

section Visits

variable {g : Grammar} {items : Items} {depth : Nat} {calls : Nat → Cursor → List Visit}
  {c : Cursor} {P : Visit → Prop}

theorem forall_mem_visitsFrom {b : Bounds} {body : Cursor → Run Cursor}
    {visits : Cursor → List Visit} (steady : Steady items body)
    (h : ∀ c : Cursor, c.Placed items → ∀ v ∈ visits c, P v) (budget : Nat)
    (hc : c.Placed items) : ∀ v ∈ visitsFrom b body visits budget c, P v := by
  induction budget generalizing c with
  | zero => exact List.forall_mem_nil _
  | succ budget ih =>
    refine List.forall_mem_append.2 ⟨h c hc, Run.forall_mem_visitsOnMatch fun _ => ?_⟩
    split
    · exact List.forall_mem_nil _
    · exact ih (steady c hc).placed

theorem leads_close {p : Parser} {inner : List Visit} (h : ∀ v ∈ inner, v.Leads)
    (hp : ∀ q title, p = .traced q title → c.AtOpening) :
    ∀ v ∈ p.close depth c inner, v.Leads :=
  List.forall_mem_append.2 ⟨h, List.forall_mem_singleton.2 hp⟩

mutual

/-- Where traces lead, so do the calls, if those of handles do. -/
theorem Parser.leads_of_calls
    (hcall : ∀ n c, Cursor.Placed items c → ∀ v ∈ calls n c, v.Leads) :
    ∀ (p : Parser) (c : Cursor), p.TracesLead → c.Placed items →
      (∀ q title, p = .traced q title → c.AtOpening) →
        ∀ v ∈ p.close depth c (p.visits g items depth calls c), v.Leads
  | .literal _ _, _, _, _, hp => leads_close (List.forall_mem_nil _) hp
  | .oneOf _, _, _, _, hp => leads_close (List.forall_mem_nil _) hp
  | .item, _, _, _, hp => leads_close (List.forall_mem_nil _) hp
  | .empty, _, _, _, hp => leads_close (List.forall_mem_nil _) hp
  | .atEnd, _, _, _, hp => leads_close (List.forall_mem_nil _) hp
  | .custom rule, _, h, hc, hp =>
    leads_close (Rule.leads_of_calls hcall rule _ h (Forks.orderly_handedIn hc.fork)) hp
  | .seq first second, _, ⟨hf, hs, apart⟩, hc, hp =>
    -- the second parser is handed the stream that the first one has read from
    leads_close (List.forall_mem_append.2
      ⟨first.leads_of_calls hcall _ hf hc.fork fun _ _ _ => hc.atOpening_fork,
        Run.forall_mem_visitsOnMatch fun _ => second.leads_of_calls hcall _ hs
          (first.extends_runWithin g depth hc.fork).placed fun q title h =>
            absurd h (apart q title)⟩) hp
  | .choice first others, _, ⟨hf, ho⟩, hc, hp =>
    leads_close (List.forall_mem_append.2
      ⟨first.leads_of_calls hcall _ hf hc.fork.fork fun _ _ _ => hc.fork.atOpening_fork,
        Run.forall_mem_visitsOrElse (Parser.leads_visitsFirst hcall others _ ho
          (steady_attempt (fun _ hd => first.extends_runWithin g depth hd) _ hc.fork).placed)⟩) hp
  | .optional parser, _, h, hc, hp | .absent parser, _, h, hc, hp | .map parser _, _, h, hc, hp
  | .withSpan parser, _, h, hc, hp | .require parser _, _, h, hc, hp
  | .reject parser _, _, h, hc, hp | .forgive parser, _, h, hc, hp =>
    leads_close (parser.leads_of_calls hcall _ h hc.fork fun _ _ _ => hc.atOpening_fork) hp
  | .times parser _, _, h, hc, hp =>
    leads_close (forall_mem_visitsFrom
      (steady_attempt fun _ hd => parser.extends_runWithin g depth hd)
      (fun _ hd => parser.leads_of_calls hcall _ h hd.fork fun _ _ _ => hd.atOpening_fork)
      _ hc.fork) hp
  | .lookingAt parser peek, _, ⟨h, hk⟩, hc, hp =>
    leads_close (List.forall_mem_append.2
      ⟨parser.leads_of_calls hcall _ h hc.fork fun _ _ _ => hc.atOpening_fork,
        Run.forall_mem_visitsOnMatch fun _ =>
          have stood := (parser.extends_runWithin g depth hc.fork).placed
          peek.leads_of_calls hcall _ hk stood.fork fun _ _ _ => stood.atOpening_fork⟩) hp
  | .seqBy parser choose, _, ⟨h, hk⟩, hc, hp =>
    leads_close (List.forall_mem_append.2
      ⟨parser.leads_of_calls hcall _ h hc.fork fun _ _ _ => hc.atOpening_fork,
        Run.forall_mem_visitsOnMatch fun v => Parser.leads_visitsChosen hcall (choose v) _ (hk v).1
          (parser.extends_runWithin g depth hc.fork).placed fun q title h =>
            absurd h ((hk v).2 q title)⟩) hp
  | .lookingAtBy parser choose, _, ⟨h, hk⟩, hc, hp =>
    leads_close (List.forall_mem_append.2
      ⟨parser.leads_of_calls hcall _ h hc.fork fun _ _ _ => hc.atOpening_fork,
        Run.forall_mem_visitsOnMatch fun v =>
          have stood := (parser.extends_runWithin g depth hc.fork).placed
          Parser.leads_visitsChosen hcall (choose v) _ (hk v) stood.fork fun _ _ _ =>
            stood.atOpening_fork⟩) hp
  | .traced parser title, _, h, hc, hp =>
    -- the one parser that is handed the very stream of the call around it
    leads_close (parser.leads_of_calls hcall _ h hc fun _ _ _ => hp parser title rfl) hp
  | .handle n, c, _, hc, hp => leads_close (hcall n c hc) hp

theorem Parser.leads_visitsFirst
    (hcall : ∀ n c, Cursor.Placed items c → ∀ v ∈ calls n c, v.Leads) :
    ∀ (ps : List Parser) (c : Cursor), Parser.TracesLeadAll ps → c.Placed items →
      ∀ v ∈ Parser.visitsFirst g items depth calls ps c, v.Leads
  | [], _, _, _ => List.forall_mem_nil _
  | p :: ps, _, ⟨h, hs⟩, hc =>
    List.forall_mem_append.2
      ⟨p.leads_of_calls hcall _ h hc.fork fun _ _ _ => hc.atOpening_fork,
        Run.forall_mem_visitsOrElse (Parser.leads_visitsFirst hcall ps _ hs
          (steady_attempt (fun _ hd => p.extends_runWithin g depth hd) _ hc).placed)⟩

theorem Parser.leads_visitsChosen
    (hcall : ∀ n c, Cursor.Placed items c → ∀ v ∈ calls n c, v.Leads) :
    ∀ (r : Except Fault Parser) (c : Cursor), Parser.TracesLeadChosen r → c.Placed items →
      (∀ q title, r = .ok (.traced q title) → c.AtOpening) →
        ∀ v ∈ Parser.visitsChosen g items depth calls r c, v.Leads
  | .error _, _, _, _, _ => List.forall_mem_nil _
  | .ok p, c, h, hc, hp =>
    p.leads_of_calls hcall c h hc fun q title same => hp q title (congrArg _ same)

theorem Rule.leads_of_calls
    (hcall : ∀ n c, Cursor.Placed items c → ∀ v ∈ calls n c, v.Leads) :
    ∀ (rule : Rule) (s : Forks), rule.TracesLead → s.Orderly items →
      ∀ v ∈ rule.visits g items depth calls s, v.Leads
  | .finish _, _, _, _ => List.forall_mem_nil _
  | .raise _, _, _, _ => List.forall_mem_nil _
  | .act operation stream next, s, h, hs =>
    Rule.leads_of_calls hcall (next (s.perform items operation stream).1) _ (h _)
      ((hs.perform operation stream).1.orderly hs)
  | .parse parser stream next, s, ⟨h, apart, hn⟩, hs => by
    have change := hs.runOn (fun _ hd => parser.extends_runWithin g depth hd) stream
    have rest := fun a => Rule.leads_of_calls hcall (next a) _ (hn a) (change.orderly hs)
    rw [Rule.visits]
    refine List.forall_mem_append.2 ⟨?_, ?_⟩
    · cases hb : s.get? stream with
      | none => exact List.forall_mem_nil _
      | some b =>
        exact parser.leads_of_calls hcall b.cursor h (hs.placed stream b hb) fun q title h =>
          absurd h (apart q title)
    · cases (s.runOn (parser.runWithin g items depth) stream).ending with
      | exhausted => exact List.forall_mem_nil _
      | raised f => exact rest (.error f)
      | answered o => exact rest (.ok o)

end

theorem Grammar.leads_visitsOfCall (hg : g.TracesLead) (depth n : Nat) (c : Cursor)
    (hc : c.Placed items) : ∀ v ∈ g.visitsOfCall items depth n c, v.Leads := by
  induction depth generalizing n c with
  | zero => exact List.forall_mem_nil _
  | succ depth ih =>
    rw [visitsOfCall]
    cases h : g.definition? n with
    | none => exact List.forall_mem_nil _
    | some p =>
      -- the definition is run on a fork, whatever the handle was called on
      exact p.leads_of_calls ih _ (hg n p h) hc.fork fun _ _ _ => hc.atOpening_fork

/-- Where traces lead, every traced call is handed a stream that stands where it was opened. -/
theorem Parser.leads_visitsWithin {p : Parser} (hp : p.TracesLead) (hg : g.TracesLead)
    (hc : c.Placed items) (opening : c.AtOpening) :
    ∀ v ∈ p.visitsWithin g items depth c, v.Leads :=
  p.leads_of_calls (g.leads_visitsOfCall hg depth) c hp hc fun _ _ _ => opening

end Visits

/-- What the traces in a run log are the entries of the traced calls that returned, wherever these
were made and in the order in which they returned.  Each has the outcome of the parser within and a
span that ends where that parser left the stream.  The span begins where the stream that the call
was handed was opened, which is where the call was made only if nothing was read from that stream
before: just then it is the span that goes with a match, or the empty span at the call.  In a
grammar whose traces lead this is so at every traced call. -/
theorem traces_span_from_opening (g : Grammar) {items : Items} (depth : Nat) (p : Parser)
    {c : Cursor} (hc : c.Placed items) :
    let visits := p.visitsWithin g items depth c
    (p.runWithin g items depth c).log.filterMap Entry.trace? =
        visits.filterMap (Visit.entry? g items) ∧
      (∀ v ∈ visits, ∀ q title o, v.parser = .traced q title →
        (q.runWithin g items v.depth v.given).ending = .answered o →
        ∃ s, v.entry? g items = some (.traced title s o) ∧ v.Spans g items q o s) ∧
      (p.TracesLead → g.TracesLead → c.AtOpening → ∀ v ∈ visits, v.Leads) := by
  intro visits
  have recorded := p.recorded g depth hc
  refine ⟨recorded.entries, fun v hv _ _ _ traced ends => ?_, fun hp hg opening => ?_⟩
  · exact Parser.spans_of_visit traced (recorded.placed v hv) ends
  · exact Parser.leads_visitsWithin hp hg hc opening

/-- A `b`. -/
def Parser.letterB : Parser := .literal (.ofText (.ofChars ['b'])) .nothing

/-- An `a` and a `b`, the second traced. -/
def Parser.tracedSecond : Parser := .seq .letterA (.traced .letterB "second")

/-- Such letters. -/
def Items.tracedSecond : Items := .ofText (.ofChars ['a', 'b'])

/-- The traced call in them. -/
def Visit.tracedSecond : Visit :=
  ⟨.traced .letterB "second", (Parser.letterA.runWithin .empty .tracedSecond 0 .start).state, 0⟩

theorem Visit.tracedSecond_mem :
    Visit.tracedSecond ∈ Parser.tracedSecond.visitsWithin .empty .tracedSecond 0 .start :=
  (Parser.traced_second_of_seq (Cursor.placed_start .tracedSecond) rfl).1

/-- The same with the trace within an optional parser, which opens a stream for it. -/
def Parser.tracedWithin : Parser := .seq .letterA (.optional (.traced .letterB "within"))

/-- The `b` is matched from the second item to the end, and logged with a span that begins at the
first item; within an optional parser it is logged with its own span. -/
theorem traces_span_from_opening_of_second :
    Cursor.start.Placed .tracedSecond ∧
      Visit.tracedSecond ∈ Parser.tracedSecond.visitsWithin .empty .tracedSecond 0 .start ∧
      (Parser.letterB.runWithin .empty .tracedSecond 0 Visit.tracedSecond.given).ending =
        .answered (.matched .nothing) ∧
      Visit.tracedSecond.entry? .empty .tracedSecond =
        some (.traced "second" ((Span.point 0).upTo 2) (.matched .nothing)) ∧
      Parser.letterB.MatchSpan .empty .tracedSecond 0 Visit.tracedSecond.given .nothing
        ((Span.point 1).upTo 2) ∧
      ¬ Visit.tracedSecond.given.AtOpening ∧
      (Parser.tracedWithin.runWithin .empty .tracedSecond 0 .start).log.filterMap Entry.trace? =
        [.traced "within" ((Span.point 1).upTo 2) (.matched .nothing)] ∧
      ∀ v ∈ Parser.tracedWithin.visitsWithin .empty .tracedSecond 0 .start, v.Leads := by
  have placed := Cursor.placed_start .tracedSecond
  have ending : (Parser.letterB.runWithin .empty .tracedSecond 0 Visit.tracedSecond.given).ending =
      .answered (.matched .nothing) := rfl
  obtain ⟨-, second, -⟩ := traces_span_from_opening .empty 0 .tracedSecond placed
  obtain ⟨entries, -, within⟩ := traces_span_from_opening .empty 0 .tracedWithin placed
  obtain ⟨s, entry, spans⟩ := second _ Visit.tracedSecond_mem .letterB "second" _ rfl ending
  obtain ⟨s', span, same⟩ := spans.of_matched .nothing rfl
  obtain rfl : s = (Span.point 0).upTo 2 := Span.ext spans.start_eq spans.stop_eq
  obtain rfl : s' = (Span.point 1).upTo 2 := Span.ext span.start_eq span.stop_eq
  have lead : Parser.tracedWithin.TracesLead := ⟨trivial, trivial, nofun⟩
  have moved : ¬Visit.tracedSecond.given.AtOpening := fun opening =>
    absurd (same.2 opening) (by decide)
  exact ⟨placed, Visit.tracedSecond_mem, ending, entry, span, moved, entries.trans rfl,
    within lead (fun _ _ => nofun) rfl⟩

/-- So the logged span is not always that of the match. -/
theorem traced_span_not_always_of_match :
    ¬ ∀ (g : Grammar) (items : Items) (depth : Nat) (p : Parser) (c : Cursor), c.Placed items →
      ∀ v ∈ p.visitsWithin g items depth c, ∀ q title w, v.parser = .traced q title →
        (q.runWithin g items v.depth v.given).ending = .answered (.matched w) →
        ∃ s, v.entry? g items = some (.traced title s (.matched w)) ∧
          q.MatchSpan g items v.depth v.given w s := by
  intro always
  obtain ⟨s, entry, span⟩ := always .empty .tracedSecond 0 .tracedSecond .start
    (Cursor.placed_start _) _ Visit.tracedSecond_mem .letterB "second" .nothing rfl rfl
  have logged : Visit.tracedSecond.entry? .empty .tracedSecond =
      some (.traced "second" ((Span.point 0).upTo 2) (.matched .nothing)) := rfl
  rw [logged] at entry
  cases entry
  exact absurd span.start_eq (by decide)

end Backtrack
