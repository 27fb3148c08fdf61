import Backtrack.Proofs.Progress
import Backtrack.Visits

/-!
# What traces log

A trace logs an entry when its parser returns.  So the entries of the traces in a log are those of
the traced calls that returned, in the order in which they did, be they made by a combinator, by a
caller's function or by a definition.  There is one rule for each way to combine runs.

* `Visit.entry?`: the entry of a call.
* `Run.Recorded`: the entries of the traces in a run are those of the calls.
* `Parser.recorded`: every run of a parser is recorded by the calls that it makes.
-/

namespace Backtrack

/-- The entry of a trace. -/
def Entry.trace? : Entry → Option Entry
  | traced title span outcome => some (.traced title span outcome)
  | _ => none

/-- The entry of a traced call that returned: the span is that of the stream as the call left it. -/
def Visit.entry? (g : Grammar) (items : Items) (v : Visit) : Option Entry :=
  match v.parser, (v.run g items).ending with
  | .traced _ title, .answered o => some (.traced title (v.run g items).state.span o)
  | _, _ => none

theorem Run.log_ofExcept {σ : Type} (r : Except Fault Outcome) (s : σ) :
    (Run.ofExcept r s).log = [] := by
  cases r <;> rfl

/-- The traces in the run log the entries of the calls, and these are made on streams in order. -/
structure Run.Recorded {σ : Type} (g : Grammar) (items : Items) (r : Run σ) (visits : List Visit) :
    Prop where
  entries : r.log.filterMap Entry.trace? = visits.filterMap (Visit.entry? g items)
  placed : ∀ v ∈ visits, v.given.Placed items

/-! ### Combining runs -/

section Combinators

variable {g : Grammar} {items : Items} {depth : Nat} {c : Cursor} {r : Run Cursor}
  {visits : List Visit} {body : Cursor → Run Cursor}

theorem recorded_silent {σ : Type} {r : Run σ} (h : r.log.filterMap Entry.trace? = []) :
    r.Recorded g items [] := ⟨h, nofun⟩

theorem recorded_withState {σ τ : Type} {r : Run σ} (h : r.Recorded g items visits) (s : τ) :
    (r.withState s).Recorded g items visits := ⟨h.entries, h.placed⟩

/-- The calls of what goes on come after those before. -/
theorem recorded_after {σ τ : Type} {r : Run σ} {r' : Run τ} {later : List Visit}
    (h : r.Recorded g items visits) (h' : r'.Recorded g items later) :
    (r'.after r.log).Recorded g items (visits ++ later) := by
  refine ⟨?_, List.forall_mem_append.2 ⟨h.placed, h'.placed⟩⟩
  rw [Run.log_after, List.filterMap_append, List.filterMap_append, h.entries, h'.entries]

theorem recorded_andThen {σ : Type} {r : Run σ} {next : Outcome → σ → Run σ}
    {later : Outcome → σ → List Visit} (h : r.Recorded g items visits)
    (hn : ∀ o, (next o r.state).Recorded g items (later o r.state)) :
    (r.andThen next).Recorded g items (visits ++ r.visitsAfter later) := by
  cases hr : r.ending with
  | exhausted =>
    rw [Run.andThen_of_exhausted hr, Run.visitsAfter, hr, List.append_nil]
    exact h
  | raised f =>
    rw [Run.andThen_of_raised hr, Run.visitsAfter, hr, List.append_nil]
    exact h
  | answered o =>
    rw [Run.andThen_of_answered hr, Run.visitsAfter, hr]
    exact recorded_after h (hn o)

/-- What goes on without a call and without a trace adds nothing. -/
theorem recorded_andThen_silent {σ : Type} {r : Run σ} {next : Outcome → σ → Run σ}
    (h : r.Recorded g items visits)
    (hn : ∀ o, (next o r.state).log.filterMap Entry.trace? = []) :
    (r.andThen next).Recorded g items visits := by
  have all : (r.andThen next).Recorded g items (visits ++ r.visitsAfter fun _ _ => []) :=
    recorded_andThen h fun o => recorded_silent (hn o)
  have none : r.visitsAfter (fun _ _ => []) = [] := by
    unfold Run.visitsAfter
    split <;> rfl
  rwa [none, List.append_nil] at all

theorem recorded_onMatch {next : Value → Cursor → Run Cursor} {later : Value → Cursor → List Visit}
    (h : r.Recorded g items visits)
    (hn : ∀ v, (next v r.state).Recorded g items (later v r.state)) :
    (r.onMatch next).Recorded g items (visits ++ r.visitsOnMatch later) := by
  refine recorded_andThen h ?_
  rintro (v | _ | e)
  · exact hn v
  · exact recorded_silent rfl
  · exact recorded_silent rfl

theorem recorded_orElse {next : Cursor → Run Cursor} {later : Cursor → List Visit}
    (h : r.Recorded g items visits) (hn : (next r.state).Recorded g items (later r.state)) :
    (r.orElse next).Recorded g items (visits ++ r.visitsOrElse later) := by
  refine recorded_andThen h ?_
  rintro (v | _ | e)
  · exact recorded_silent rfl
  · exact hn
  · exact recorded_silent rfl

theorem recorded_orElse_answer (h : r.Recorded g items visits) (o : Outcome) :
    (r.orElse fun c => .answer o c).Recorded g items visits := by
  refine recorded_andThen_silent h ?_
  rintro (v | _ | e) <;> rfl

theorem recorded_reply {σ : Type} {r : Run σ} (h : r.Recorded g items visits)
    (f : Outcome → σ → Except Fault Outcome) : (r.reply f).Recorded g items visits :=
  recorded_andThen_silent h fun _ => congrArg _ (Run.log_ofExcept _ _)

theorem recorded_output (h : r.Recorded g items visits)
    (f : Value → Cursor → Except Fault Value) : (r.output f).Recorded g items visits := by
  unfold Run.output Run.onMatch
  refine recorded_andThen_silent h ?_
  rintro (v | _ | e)
  · exact congrArg _ (Run.log_ofExcept _ _)
  · rfl
  · rfl

theorem recorded_attempt (h : (body c.fork).Recorded g items visits) :
    (attempt body c).Recorded g items visits :=
  ⟨(congrArg _ (log_attempt body c)).trans h.entries, h.placed⟩

theorem recorded_probe (h : (body c.fork).Recorded g items visits) :
    (probe body c).Recorded g items visits :=
  recorded_withState h c

theorem recorded_closeFunction {r : Run Forks} (h : r.Recorded g items visits) (c : Cursor) :
    (closeFunction c r).Recorded g items visits := by
  unfold closeFunction
  split <;> exact recorded_withState h _

theorem recorded_runOn {s : Forks} {i : Nat} (visits : Cursor → List Visit)
    (h : ∀ b, s.get? i = some b → (body b.cursor).Recorded g items (visits b.cursor)) :
    (s.runOn body i).Recorded g items
      (match s.get? i with
        | none => []
        | some b => visits b.cursor) := by
  unfold Forks.runOn
  cases hb : s.get? i with
  | none => exact recorded_silent rfl
  | some b => exact recorded_withState (h b hb) _

theorem recorded_repeatFrom (b : Bounds) {visits : Cursor → List Visit} (steady : Steady items body)
    (h : ∀ c : Cursor, c.Placed items → (body c).Recorded g items (visits c)) (budget : Nat)
    (outputs : List Value) (hc : c.Placed items) :
    (repeatFrom b body budget outputs [] c).Recorded g items
      (visitsFrom b body visits budget c) := by
  -- each match hands the rest of the loop a placed stream, with one try less to go
  induction budget generalizing outputs c with
  | zero =>
    unfold repeatFrom
    split <;> exact recorded_silent rfl
  | succ budget ih =>
    rw [repeatFrom_succ]
    refine recorded_andThen (h c hc) ?_
    rintro (v | _ | e)
    · dsimp only
      split
      · exact recorded_silent rfl
      · exact ih (v :: outputs) (steady c hc).placed
    · exact recorded_silent rfl
    · exact recorded_silent rfl

theorem recorded_readItem (c : Cursor) : (c.readItem items).Recorded g items [] := by
  unfold Cursor.readItem
  split <;> exact recorded_silent rfl

theorem recorded_readLiteral (pattern : Items) (output : Value) (c : Cursor) :
    (c.readLiteral items pattern output).Recorded g items [] := by
  unfold Cursor.readLiteral
  split <;> exact recorded_silent rfl

end Combinators

/-! ### Calls -/

section Calls

variable {g : Grammar} {items : Items} {depth : Nat} {p : Parser} {c : Cursor} {inner : List Visit}

theorem placed_close (h : ∀ v ∈ inner, v.given.Placed items) (hc : c.Placed items) :
    ∀ v ∈ p.close depth c inner, v.given.Placed items :=
  List.forall_mem_append.2 ⟨h, List.forall_mem_singleton.2 hc⟩

theorem entries_close : (p.close depth c inner).filterMap (Visit.entry? g items) =
    inner.filterMap (Visit.entry? g items) ++ (Visit.entry? g items ⟨p, c, depth⟩).toList := by
  rw [Parser.close, List.filterMap_append, List.filterMap_cons]
  cases Visit.entry? g items ⟨p, c, depth⟩ <;> rfl

/-- A call that is not traced logs no entry of its own. -/
theorem recorded_close
    (h : (p.runWith items (g.call items depth) c).Recorded g items inner)
    (hc : c.Placed items) (hp : ∀ q title, p ≠ .traced q title) :
    (p.runWithin g items depth c).Recorded g items (p.close depth c inner) := by
  have own : Visit.entry? g items ⟨p, c, depth⟩ = none := by
    cases p with
    | traced q title => exact absurd rfl (hp q title)
    | _ => rfl
  refine ⟨h.entries.trans ?_, placed_close h.placed hc⟩
  rw [entries_close, own, Option.toList_none, List.append_nil]

/-- A traced call logs its own entry after those of the calls within it, if it returns. -/
theorem recorded_close_traced (h : (p.runWithin g items depth c).Recorded g items inner)
    (hc : c.Placed items) (title : String) :
    ((Parser.traced p title).runWithin g items depth c).Recorded g items
      ((Parser.traced p title).close depth c inner) := by
  refine ⟨?_, placed_close h.placed hc⟩
  have run : (Parser.traced p title).runWithin g items depth c =
      (p.runWithin g items depth c).andThen fun o d =>
        ⟨.answered o, d, [.traced title d.span o]⟩ := rfl
  rw [entries_close, ← h.entries, Visit.entry?, Visit.run, run]
  cases hr : (p.runWithin g items depth c).ending with
  | exhausted =>
    rw [Run.andThen_of_exhausted hr, hr]
    exact (List.append_nil _).symm
  | raised f =>
    rw [Run.andThen_of_raised hr, hr]
    exact (List.append_nil _).symm
  | answered o =>
    -- the entry is the last in the log, as the call is the last of those listed
    rw [Run.andThen_of_answered hr, Run.log_after, List.filterMap_append]
    rfl

end Calls

/-! ### Parsers and rules -/

section Parsers

variable {g : Grammar} {items : Items} {depth : Nat} {calls : Nat → Cursor → List Visit}

mutual

/-- A run of a parser is recorded by the calls within it and its own, if calls of handles are
recorded. -/
theorem Parser.recorded_of_calls
    (hcall : ∀ n c, Cursor.Placed items c → (g.call items depth n c).Recorded g items (calls n c)) :
    ∀ (p : Parser) (c : Cursor), c.Placed items →
      (p.runWithin g items depth c).Recorded g items
        (p.close depth c (p.visits g items depth calls c))
  | .literal pattern output, c, hc =>
    recorded_close (recorded_attempt (recorded_readLiteral pattern output _)) hc nofun
  | .oneOf group, c, hc =>
    recorded_close (recorded_attempt (recorded_reply (recorded_readItem _) _)) hc nofun
  | .item, c, hc => recorded_close (recorded_readItem c) hc nofun
  | .empty, c, hc => recorded_close (recorded_silent rfl) hc nofun
  | .atEnd, c, hc =>
    recorded_close (recorded_reply (recorded_probe (recorded_readItem _)) _) hc nofun
  | .custom rule, c, hc =>
    recorded_close (recorded_closeFunction
      (Rule.recorded_of_calls hcall rule _ (Forks.orderly_handedIn hc.fork)) c) hc nofun
  | .seq first second, c, hc =>
    recorded_close (recorded_attempt
      (recorded_onMatch (first.recorded_of_calls hcall _ hc.fork) fun _ =>
        recorded_output (second.recorded_of_calls hcall _
          (first.extends_runWithin g depth hc.fork).placed) _)) hc nofun
  | .choice first others, c, hc =>
    recorded_close (recorded_attempt
      (recorded_orElse (recorded_attempt (first.recorded_of_calls hcall _ hc.fork.fork))
        (Parser.recorded_visitsFirst hcall others _
          (steady_attempt (fun _ hd => first.extends_runWithin g depth hd) _ hc.fork).placed)))
      hc nofun
  | .optional parser, c, hc =>
    recorded_close (recorded_orElse_answer
      (recorded_attempt (parser.recorded_of_calls hcall _ hc.fork)) _) hc nofun
  | .absent parser, c, hc =>
    recorded_close (recorded_reply
      (recorded_probe (parser.recorded_of_calls hcall _ hc.fork)) _) hc nofun
  | .times parser bounds, c, hc =>
    recorded_close (recorded_attempt (recorded_repeatFrom bounds
      (steady_attempt fun _ hd => parser.extends_runWithin g depth hd)
      (fun _ hd => recorded_attempt (parser.recorded_of_calls hcall _ hd.fork)) _ [] hc.fork))
      hc nofun
  | .map parser _, c, hc =>
    recorded_close (recorded_attempt
      (recorded_output (parser.recorded_of_calls hcall _ hc.fork) _)) hc nofun
  | .withSpan parser, c, hc =>
    recorded_close (recorded_attempt
      (recorded_output (parser.recorded_of_calls hcall _ hc.fork) _)) hc nofun
  | .lookingAt parser peek, c, hc =>
    recorded_close (recorded_attempt
      (recorded_onMatch (parser.recorded_of_calls hcall _ hc.fork) fun _ =>
        recorded_output (recorded_probe (peek.recorded_of_calls hcall _
          (parser.extends_runWithin g depth hc.fork).placed.fork)) _)) hc nofun
  | .seqBy parser choose, c, hc =>
    recorded_close (recorded_attempt
      (recorded_onMatch (parser.recorded_of_calls hcall _ hc.fork) fun v =>
        recorded_output (Parser.recorded_visitsChosen hcall (choose v) _
          (parser.extends_runWithin g depth hc.fork).placed) _)) hc nofun
  | .lookingAtBy parser choose, c, hc =>
    recorded_close (recorded_attempt
      (recorded_onMatch (parser.recorded_of_calls hcall _ hc.fork) fun v =>
        recorded_output (recorded_probe (Parser.recorded_visitsChosen hcall (choose v) _
          (parser.extends_runWithin g depth hc.fork).placed.fork)) _)) hc nofun
  | .require parser _, c, hc =>
    recorded_close (recorded_attempt
      (recorded_reply (parser.recorded_of_calls hcall _ hc.fork) _)) hc nofun
  | .reject parser error, c, hc =>
    recorded_close (recorded_withState
      (recorded_reply (parser.recorded_of_calls hcall _ hc.fork) _) c) hc nofun
  | .forgive parser, c, hc =>
    recorded_close (recorded_andThen_silent
      (recorded_attempt (parser.recorded_of_calls hcall _ hc.fork)) fun o => by cases o <;> rfl)
      hc nofun
  | .traced parser title, c, hc =>
    recorded_close_traced (parser.recorded_of_calls hcall c hc) hc title
  | .handle number, c, hc => recorded_close (hcall number c hc) hc nofun

theorem Parser.recorded_visitsFirst
    (hcall : ∀ n c, Cursor.Placed items c → (g.call items depth n c).Recorded g items (calls n c)) :
    ∀ (ps : List Parser) (c : Cursor), c.Placed items →
      (Parser.runFirst items (g.call items depth) ps c).Recorded g items
        (Parser.visitsFirst g items depth calls ps c)
  | [], _, _ => recorded_silent rfl
  | p :: ps, _, hc =>
    recorded_orElse (recorded_attempt (p.recorded_of_calls hcall _ hc.fork))
      (Parser.recorded_visitsFirst hcall ps _
        (steady_attempt (fun _ hd => p.extends_runWithin g depth hd) _ hc).placed)

theorem Parser.recorded_visitsChosen
    (hcall : ∀ n c, Cursor.Placed items c → (g.call items depth n c).Recorded g items (calls n c)) :
    ∀ (r : Except Fault Parser) (c : Cursor), c.Placed items →
      (Parser.runChosen items (g.call items depth) r c).Recorded g items
        (Parser.visitsChosen g items depth calls r c)
  | .error _, _, _ => recorded_silent rfl
  | .ok p, c, hc => p.recorded_of_calls hcall c hc

theorem Rule.recorded_of_calls
    (hcall : ∀ n c, Cursor.Placed items c → (g.call items depth n c).Recorded g items (calls n c)) :
    ∀ (rule : Rule) (s : Forks), s.Orderly items →
      (rule.runWith items (g.call items depth) s).Recorded g items
        (rule.visits g items depth calls s)
  | .finish _, _, _ => recorded_silent rfl
  | .raise _, _, _ => recorded_silent rfl
  | .act operation stream next, s, hs =>
    Rule.recorded_of_calls hcall (next (s.perform items operation stream).1) _
      ((hs.perform operation stream).1.orderly hs)
  | .parse parser stream next, s, hs => by
    have first : (s.runOn (parser.runWithin g items depth) stream).Recorded g items _ :=
      recorded_runOn (fun c => parser.close depth c (parser.visits g items depth calls c))
        fun b hb => parser.recorded_of_calls hcall b.cursor (hs.placed stream b hb)
    have change := hs.runOn (fun _ hd => parser.extends_runWithin g depth hd) stream
    have rest := fun a => Rule.recorded_of_calls hcall (next a) _ (change.orderly hs)
    have run : Rule.runWith items (g.call items depth) (.parse parser stream next) s =
        let r := s.runOn (parser.runWithin g items depth) stream
        match r.ending with
        | .exhausted => r
        | .raised f => ((next (.error f)).runWith items (g.call items depth) r.state).after r.log
        | .answered o =>
          ((next (.ok o)).runWith items (g.call items depth) r.state).after r.log := by
      rw [Rule.runWith]
      rfl
    rw [run, Rule.visits]
    dsimp only
    cases (s.runOn (parser.runWithin g items depth) stream).ending with
    | exhausted =>
      rw [List.append_nil]
      exact first
    | raised f => exact recorded_after first (rest (.error f))
    | answered o => exact recorded_after first (rest (.ok o))

end

end Parsers

theorem Grammar.recorded_call (g : Grammar) {items : Items} (depth : Nat) (n : Nat) (c : Cursor)
    (hc : c.Placed items) :
    (g.call items depth n c).Recorded g items (g.visitsOfCall items depth n c) := by
  -- the calls of handles within a definition have one call less to go
  induction depth generalizing n c with
  | zero => exact recorded_silent rfl
  | succ depth ih =>
    rw [call, visitsOfCall]
    cases g.definition? n with
    | none => exact recorded_silent rfl
    | some p => exact recorded_attempt (p.recorded_of_calls ih _ hc.fork)

/-- What the traces in a run log are the entries of the calls that it makes. -/
theorem Parser.recorded (g : Grammar) {items : Items} (depth : Nat) (p : Parser) {c : Cursor}
    (hc : c.Placed items) :
    (p.runWithin g items depth c).Recorded g items (p.visitsWithin g items depth c) :=
  p.recorded_of_calls (g.recorded_call depth) c hc

end Backtrack
