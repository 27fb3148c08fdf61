import Backtrack.Parser.Parts
import Backtrack.Proofs.Progress

/-!
# How runs end

A class of endings that holds matches, non-matches and faults is kept by the combinators: if calls
of the handles that occur in a parser end in the class, so does the parser, unless it makes errors
of its own and the class has none.  In particular the loop of an unbounded repetition never uses up
its budget, since every match that lets it go on moves the stream towards the end of the input.

* `Benign`: such a class of endings.
* `Parser.Safe`: what a part of a parser has to satisfy for its runs to end in the class.
* `Parser.ends_in`: a parser with safe parts ends in the class.
-/

namespace Backtrack

/-- A class of endings with all matches, non-matches and faults in it. -/
structure Benign (good : Ending → Prop) : Prop where
  matched : ∀ v, good (.answered (.matched v))
  notMatched : good (.answered .notMatched)
  raised : ∀ f, good (.raised f)

/-- Every run of the body from a placed cursor ends in the class. -/
def EndsIn (items : Items) (good : Ending → Prop) (body : Cursor → Run Cursor) : Prop :=
  ∀ c : Cursor, c.Placed items → good (body c).ending

section Combinators

variable {items : Items} {good : Ending → Prop} {r : Run Cursor} {body : Cursor → Run Cursor}
  {c : Cursor}

theorem EndsIn.attempt (h : EndsIn items good body) : EndsIn items good (attempt body) := by
  intro c hc
  rw [ending_attempt]
  exact h c.fork hc.fork

theorem EndsIn.probe (h : EndsIn items good body) : EndsIn items good (probe body) :=
  fun c hc => h c.fork hc.fork

theorem ends_andThen {next : Outcome → Cursor → Run Cursor} (h : good r.ending)
    (hn : ∀ o, good (.answered o) → good (next o r.state).ending) :
    good (r.andThen next).ending := by
  cases hr : r.ending with
  | exhausted => rwa [Run.andThen_of_exhausted hr]
  | raised f => rwa [Run.andThen_of_raised hr]
  | answered o =>
    rw [Run.andThen_of_answered hr]
    exact hn o (hr ▸ h)

theorem ends_onMatch {next : Value → Cursor → Run Cursor} (h : good r.ending)
    (hn : ∀ v, good (next v r.state).ending) : good (r.onMatch next).ending := by
  apply ends_andThen h
  rintro (v | _ | e) ho
  · exact hn v
  · exact ho
  · exact ho

theorem ends_orElse {next : Cursor → Run Cursor} (h : good r.ending)
    (hn : good (next r.state).ending) : good (r.orElse next).ending := by
  apply ends_andThen h
  rintro (v | _ | e) ho
  · exact ho
  · exact hn
  · exact ho

theorem ends_output (hgood : Benign good) (h : good r.ending)
    (f : Value → Cursor → Except Fault Value) : good (r.output f).ending := by
  refine ends_onMatch h fun v => ?_
  cases f v r.state with
  | error e => exact hgood.raised e
  | ok w => exact hgood.matched w

theorem ends_reply (hgood : Benign good) (h : good r.ending)
    {f : Outcome → Cursor → Except Fault Outcome}
    (hf : ∀ o o', good (.answered o) → f o r.state = .ok o' → good (.answered o')) :
    good (r.reply f).ending := by
  refine ends_andThen h fun o ho => ?_
  cases hr : f o r.state with
  | error e => exact hgood.raised e
  | ok o' => exact hf o o' ho hr

theorem Benign.conclude (hgood : Benign good) (b : Bounds) (outputs : List Value) :
    good (.answered (b.conclude outputs)) := by
  unfold Bounds.conclude
  split
  · exact hgood.notMatched
  · exact hgood.matched _

/-- The loop of a repetition, with more attempts to go than items are left. -/
theorem ends_repeatFrom (hgood : Benign good) (b : Bounds) (h : EndsIn items good body)
    (hs : Steady items body) {budget : Nat} {outputs : List Value} (hc : c.Placed items)
    (hbudget : b.most = none → c.left items < budget) :
    good (repeatFrom b body budget outputs [] c).ending := by
  induction budget generalizing outputs c with
  | zero =>
    unfold repeatFrom
    split
    · exact hgood.conclude b outputs
    · rename_i hmost
      exact absurd (hbudget hmost) (Nat.not_lt_zero _)
  | succ budget ih =>
    have later := hs c hc
    rw [repeatFrom_succ]
    apply ends_andThen (h c hc)
    rintro (v | _ | e) ho
    · dsimp only
      split
      · exact hgood.raised _
      · rename_i hmoved
        refine ih later.placed fun hmost => ?_
        -- the match moved the stream, so fewer items are left than before
        have hne : (body c).state.position ≠ c.position := by simpa [hmost] using hmoved
        have hle := later.le
        have hsize := later.placed.le_size
        have hleft := hbudget hmost
        simp only [Cursor.left] at hleft ⊢
        omega
    · exact hgood.conclude b outputs
    · exact ho

theorem left_lt_budget (b : Bounds) (items : Items) (c : Cursor) (h : b.most = none) :
    c.left items < b.budget items c := by
  simp [Bounds.budget, h]

theorem EndsIn.readItem (hgood : Benign good) : EndsIn items good (Cursor.readItem items) := by
  intro c _
  obtain ⟨v, -, hr⟩ | ⟨-, hr⟩ | ⟨-, hr⟩ := c.readItem_cases items <;> rw [hr]
  · exact hgood.matched v
  · exact hgood.notMatched
  · exact hgood.raised _

theorem EndsIn.readMember (hgood : Benign good) (group : Items) :
    EndsIn items good (Cursor.readMember items group) := by
  refine fun c hc => ends_reply hgood (EndsIn.readItem hgood c hc) ?_
  rintro (v | _ | e) o' ho ho'
  · dsimp only at ho'
    obtain found | ⟨-, refused⟩ := group.lookup_eq v
    · rw [found] at ho'
      cases ho'
      dsimp only
      split
      · exact hgood.matched v
      · exact hgood.notMatched
    · rw [refused] at ho'
      cases ho'
  · cases ho'
    exact ho
  · cases ho'
    exact ho

theorem EndsIn.readLiteral (hgood : Benign good) (pattern : Items) (output : Value) :
    EndsIn items good (Cursor.readLiteral items pattern output) := by
  intro c _
  unfold Cursor.readLiteral
  split
  · exact hgood.raised _
  · exact hgood.matched _
  · exact hgood.notMatched

end Combinators

section Parsers

variable {items : Items} {good : Ending → Prop} {call : Nat → Cursor → Run Cursor}

/-- What a part of a parser has to satisfy: calls of a handle end in the class; there are errors in
the class if the part makes any; and it is no caller's function. -/
def Parser.Safe (items : Items) (good : Ending → Prop) (call : Nat → Cursor → Run Cursor) :
    Parser → Prop
  | .handle n => EndsIn items good (call n)
  | .require _ _ | .reject _ _ => ∀ e, good (.answered (.failed e))
  | .custom _ => False
  | _ => True

mutual

/-- Runs of a parser whose parts are safe end in the class. -/
theorem Parser.ends_in (hgood : Benign good) (hsteady : ∀ n, Steady items (call n)) :
    ∀ p : Parser, (∀ q, p.Contains q → q.Safe items good call) →
      EndsIn items good (p.runWith items call)
  | .literal pattern output, _ => (EndsIn.readLiteral hgood pattern output).attempt
  | .oneOf group, _ => (EndsIn.readMember hgood group).attempt
  | .item, _ => EndsIn.readItem hgood
  | .empty, _ => fun _ _ => hgood.matched _
  | .atEnd, _ => fun c hc => by
    refine ends_reply hgood ((EndsIn.readItem hgood).probe c hc) ?_
    rintro (v | _ | e) o' _ ho'
    · cases ho'
      exact hgood.notMatched
    · cases ho'
      exact hgood.matched _
    · cases ho'
      exact hgood.matched _
  | .custom rule, h => (h _ (.self _)).elim
  | .seq first second, h =>
    have hf := Parser.ends_in hgood hsteady first fun q hq => h q (.seq_first hq)
    have hs := Parser.ends_in hgood hsteady second fun q hq => h q (.seq_second hq)
    EndsIn.attempt fun c hc => ends_onMatch (hf c hc) fun v =>
      ends_output hgood (hs _ (first.steady hsteady c hc).placed) _
  | .choice first others, h =>
    have hf := Parser.ends_in hgood hsteady first fun q hq => h q (.choice_first hq)
    have ho := Parser.runFirst_ends_in hgood hsteady others fun _ hp q hq =>
      h q (.choice_other hp hq)
    EndsIn.attempt fun c hc => ends_orElse (hf.attempt c hc)
      (ho _ (steady_attempt (first.steady hsteady) c hc).placed)
  | .optional parser, h =>
    have hp := Parser.ends_in hgood hsteady parser fun q hq => h q (.optional hq)
    fun c hc => ends_orElse (hp.attempt c hc) (hgood.matched _)
  | .absent parser, h => fun c hc => by
    have hp := Parser.ends_in hgood hsteady parser fun q hq => h q (.absent hq)
    refine ends_reply hgood (hp.probe c hc) ?_
    rintro (v | _ | e) o' ho ho'
    · cases ho'
      exact hgood.notMatched
    · cases ho'
      exact hgood.matched _
    · cases ho'
      exact ho
  | .times parser bounds, h =>
    have hp := Parser.ends_in hgood hsteady parser fun q hq => h q (.times hq)
    EndsIn.attempt fun c hc => ends_repeatFrom hgood bounds hp.attempt
      (steady_attempt (parser.steady hsteady)) hc (left_lt_budget bounds items c)
  | .map parser _, h =>
    have hp := Parser.ends_in hgood hsteady parser fun q hq => h q (.map hq)
    EndsIn.attempt fun c hc => ends_output hgood (hp c hc) _
  | .withSpan parser, h =>
    have hp := Parser.ends_in hgood hsteady parser fun q hq => h q (.withSpan hq)
    EndsIn.attempt fun c hc => ends_output hgood (hp c hc) _
  | .lookingAt parser peek, h =>
    have hp := Parser.ends_in hgood hsteady parser fun q hq => h q (.lookingAt_body hq)
    have hq := Parser.ends_in hgood hsteady peek fun q hq => h q (.lookingAt_peek hq)
    EndsIn.attempt fun c hc => ends_onMatch (hp c hc) fun v =>
      ends_output hgood (hq.probe _ (parser.steady hsteady c hc).placed) _
  | .seqBy parser choose, h =>
    have hp := Parser.ends_in hgood hsteady parser fun q hq => h q (.seqBy_body hq)
    have hq := fun v => Parser.runChosen_ends_in hgood hsteady (choose v) fun _ hr q hq =>
      h q (.seqBy_chosen hr hq)
    EndsIn.attempt fun c hc => ends_onMatch (hp c hc) fun v =>
      ends_output hgood (hq v _ (parser.steady hsteady c hc).placed) _
  | .lookingAtBy parser choose, h =>
    have hp := Parser.ends_in hgood hsteady parser fun q hq => h q (.lookingAtBy_body hq)
    have hq := fun v => Parser.runChosen_ends_in hgood hsteady (choose v) fun _ hr q hq =>
      h q (.lookingAtBy_chosen hr hq)
    EndsIn.attempt fun c hc => ends_onMatch (hp c hc) fun v =>
      ends_output hgood ((hq v).probe _ (parser.steady hsteady c hc).placed) _
  | .require parser error, h => EndsIn.attempt fun c hc => by
    have hp := Parser.ends_in hgood hsteady parser fun q hq => h q (.require hq)
    refine ends_reply hgood (hp c hc) fun o o' ho ho' => ?_
    cases o' with
    | matched v => exact hgood.matched v
    | notMatched => exact hgood.notMatched
    | failed e => exact h _ (.self _) e
  | .reject parser error, h => EndsIn.probe fun c hc => by
    have hp := Parser.ends_in hgood hsteady parser fun q hq => h q (.reject hq)
    refine ends_reply hgood (hp c hc) fun o o' ho ho' => ?_
    cases o' with
    | matched v => exact hgood.matched v
    | notMatched => exact hgood.notMatched
    | failed e => exact h _ (.self _) e
  | .forgive parser, h => fun c hc => by
    have hp := Parser.ends_in hgood hsteady parser fun q hq => h q (.forgive hq)
    apply ends_andThen (hp.attempt c hc)
    rintro (v | _ | e) ho
    · exact ho
    · exact ho
    · exact hgood.notMatched
  | .traced parser _, h =>
    have hp := Parser.ends_in hgood hsteady parser fun q hq => h q (.traced hq)
    fun c hc => ends_andThen (hp c hc) fun _ ho => ho
  | .handle n, h => h _ (.self _)

theorem Parser.runFirst_ends_in (hgood : Benign good) (hsteady : ∀ n, Steady items (call n)) :
    ∀ ps : List Parser, (∀ p ∈ ps, ∀ q, p.Contains q → q.Safe items good call) →
      EndsIn items good (Parser.runFirst items call ps)
  | [], _ => fun _ _ => hgood.notMatched
  | p :: ps, h =>
    have hp := Parser.ends_in hgood hsteady p (h p List.mem_cons_self)
    have hps := Parser.runFirst_ends_in hgood hsteady ps fun q hq => h q (List.mem_cons_of_mem p hq)
    fun c hc => ends_orElse (hp.attempt c hc)
      (hps _ (steady_attempt (p.steady hsteady) c hc).placed)

theorem Parser.runChosen_ends_in (hgood : Benign good) (hsteady : ∀ n, Steady items (call n)) :
    ∀ r : Except Fault Parser, (∀ p, r = .ok p → ∀ q, p.Contains q → q.Safe items good call) →
      EndsIn items good (Parser.runChosen items call r)
  | .error f, _ => fun _ _ => hgood.raised f
  | .ok p, h => Parser.ends_in hgood hsteady p (h p rfl)

end

end Parsers

end Backtrack
