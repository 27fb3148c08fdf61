import Backtrack.Grammar

/-!
# The granted depth

A run that ends before the granted depth is used up stays the same run, log and all, however much
more depth is granted.  So it makes sense to speak of what a parser comes to with enough depth.

* `Deepens`: a body that does what another one does wherever that one ends within its depth.
* `Parser.deepens`: a parser deepens along with the calls of handles.
* `Grammar.runWithin_of_le`: a run that ended is the run at every greater depth.
-/

namespace Backtrack

/-- `body'` does what `body` does wherever `body` has enough depth. -/
def Deepens {σ : Type} (body body' : σ → Run σ) : Prop :=
  ∀ s, (body s).ending ≠ .exhausted → body' s = body s

section Combinators

variable {body body' : Cursor → Run Cursor}

theorem Deepens.refl {σ : Type} (body : σ → Run σ) : Deepens body body := fun _ _ => rfl

theorem deepens_attempt (h : Deepens body body') : Deepens (attempt body) (attempt body') := by
  intro c hc
  rw [ending_attempt] at hc
  simp only [attempt, h c.fork hc]

theorem deepens_probe (h : Deepens body body') : Deepens (probe body) (probe body') := by
  intro c hc
  rw [ending_probe] at hc
  simp only [probe, h c.fork hc]

theorem deepens_andThen {σ : Type} {body body' : σ → Run σ} {next next' : Outcome → σ → Run σ}
    (h : Deepens body body') (hn : ∀ o, Deepens (next o) (next' o)) :
    Deepens (fun s => (body s).andThen next) fun s => (body' s).andThen next' := by
  intro s hs
  dsimp only at hs ⊢
  cases hr : (body s).ending with
  | exhausted =>
    rw [Run.andThen_of_exhausted hr] at hs
    exact absurd hr hs
  | raised f =>
    rw [h s (by simp [hr]), Run.andThen_of_raised hr, Run.andThen_of_raised hr]
  | answered o =>
    rw [h s (by simp [hr]), Run.andThen_of_answered hr, Run.andThen_of_answered hr]
    rw [Run.andThen_of_answered hr, Run.ending_after] at hs
    rw [hn o _ hs]

theorem deepens_onMatch {next next' : Value → Cursor → Run Cursor} (h : Deepens body body')
    (hn : ∀ v, Deepens (next v) (next' v)) :
    Deepens (fun c => (body c).onMatch next) fun c => (body' c).onMatch next' := by
  apply deepens_andThen h
  rintro (v | _ | e)
  · exact hn v
  · exact .refl _
  · exact .refl _

theorem deepens_orElse {next next' : Cursor → Run Cursor} (h : Deepens body body')
    (hn : Deepens next next') :
    Deepens (fun c => (body c).orElse next) fun c => (body' c).orElse next' := by
  apply deepens_andThen h
  rintro (v | _ | e)
  · exact .refl _
  · exact hn
  · exact .refl _

theorem deepens_output (h : Deepens body body') (f : Value → Cursor → Except Fault Value) :
    Deepens (fun c => (body c).output f) fun c => (body' c).output f :=
  deepens_onMatch h fun _ => .refl _

theorem deepens_reply (h : Deepens body body') (f : Outcome → Cursor → Except Fault Outcome) :
    Deepens (fun c => (body c).reply f) fun c => (body' c).reply f :=
  deepens_andThen h fun _ => .refl _

theorem deepens_repeatFrom (b : Bounds) (h : Deepens body body') (budget : Nat)
    (outputs : List Value) (entries : List Entry) :
    Deepens (repeatFrom b body budget outputs entries)
      (repeatFrom b body' budget outputs entries) := by
  intro c hc
  induction budget generalizing c outputs entries with
  | zero => rfl
  | succ budget ih =>
    -- an attempt without enough depth would have been the end of the loop
    have hr : (body c).ending ≠ .exhausted := by
      intro hr
      simp [repeatFrom, hr] at hc
    unfold repeatFrom at hc ⊢
    rw [h c hr]
    dsimp only at hc ⊢
    split at hc
    · split at hc
      · rename_i hstuck
        rw [if_pos hstuck, if_pos hstuck]
      · rename_i hmoved
        rw [if_neg hmoved, if_neg hmoved]
        exact ih _ _ _ hc
    · rfl
    · rfl

theorem deepens_runOn (h : Deepens body body') (i : Nat) :
    Deepens (Forks.runOn body i) (Forks.runOn body' i) := by
  intro s hs
  unfold Forks.runOn at hs ⊢
  cases hb : s.get? i with
  | none => rfl
  | some b =>
    rw [hb] at hs
    dsimp only at hs ⊢
    rw [h b.cursor hs]

theorem ending_closeFunction (c : Cursor) (r : Run Forks) :
    (closeFunction c r).ending = r.ending := by
  unfold closeFunction
  split <;> rfl

end Combinators

section Parsers

variable {items : Items} {call call' : Nat → Cursor → Run Cursor}

mutual

theorem Parser.deepens (hcall : ∀ n, Deepens (call n) (call' n)) :
    ∀ p : Parser, Deepens (p.runWith items call) (p.runWith items call')
  | .literal _ _ => .refl _
  | .oneOf _ => .refl _
  | .item => .refl _
  | .empty => .refl _
  | .atEnd => .refl _
  | .custom rule => fun c hc => by
    rw [Parser.runWith, ending_closeFunction] at hc
    rw [Parser.runWith, Parser.runWith, Rule.deepens hcall rule _ hc]
  | .seq first second => deepens_attempt (deepens_onMatch (Parser.deepens hcall first) fun _ =>
      deepens_output (Parser.deepens hcall second) _)
  | .choice first others =>
    deepens_attempt (deepens_orElse (deepens_attempt (Parser.deepens hcall first))
      (Parser.deepens_runFirst hcall others))
  | .optional parser => deepens_orElse (deepens_attempt (Parser.deepens hcall parser)) (.refl _)
  | .absent parser => deepens_reply (deepens_probe (Parser.deepens hcall parser)) _
  | .times parser bounds => deepens_attempt fun c =>
      deepens_repeatFrom bounds (deepens_attempt (Parser.deepens hcall parser)) _ _ _ c
  | .map parser _ => deepens_attempt (deepens_output (Parser.deepens hcall parser) _)
  | .withSpan parser => deepens_attempt (deepens_output (Parser.deepens hcall parser) _)
  | .lookingAt parser peek =>
    deepens_attempt (deepens_onMatch (Parser.deepens hcall parser) fun _ =>
      deepens_output (deepens_probe (Parser.deepens hcall peek)) _)
  | .seqBy parser choose =>
    deepens_attempt (deepens_onMatch (Parser.deepens hcall parser) fun v =>
      deepens_output (Parser.deepens_runChosen hcall (choose v)) _)
  | .lookingAtBy parser choose =>
    deepens_attempt (deepens_onMatch (Parser.deepens hcall parser) fun v =>
      deepens_output (deepens_probe (Parser.deepens_runChosen hcall (choose v))) _)
  | .require parser _ => deepens_attempt (deepens_reply (Parser.deepens hcall parser) _)
  | .reject parser _ => deepens_probe (deepens_reply (Parser.deepens hcall parser) _)
  | .forgive parser =>
    deepens_andThen (deepens_attempt (Parser.deepens hcall parser)) fun _ => .refl _
  | .traced parser _ => deepens_andThen (Parser.deepens hcall parser) fun _ => .refl _
  | .handle n => hcall n

theorem Parser.deepens_runFirst (hcall : ∀ n, Deepens (call n) (call' n)) :
    ∀ ps : List Parser, Deepens (Parser.runFirst items call ps) (Parser.runFirst items call' ps)
  | [] => .refl _
  | p :: ps => deepens_orElse (deepens_attempt (Parser.deepens hcall p))
      (Parser.deepens_runFirst hcall ps)

theorem Parser.deepens_runChosen (hcall : ∀ n, Deepens (call n) (call' n)) :
    ∀ r : Except Fault Parser,
      Deepens (Parser.runChosen items call r) (Parser.runChosen items call' r)
  | .error _ => .refl _
  | .ok p => Parser.deepens hcall p

theorem Rule.deepens (hcall : ∀ n, Deepens (call n) (call' n)) :
    ∀ rule : Rule, Deepens (rule.runWith items call) (rule.runWith items call')
  | .finish _ => .refl _
  | .raise _ => .refl _
  | .act operation stream next => fun s hs =>
    Rule.deepens hcall (next (s.perform items operation stream).1) _ hs
  | .parse parser stream next => fun s hs => by
    have body := deepens_runOn (Parser.deepens hcall parser) stream s
    rw [Rule.runWith] at hs ⊢
    split at hs
    · rename_i h
      exact absurd h hs
    · rename_i f h
      rw [body (by simp [h]), Rule.runWith, h]
      dsimp only
      rw [Rule.deepens hcall (next (.error f)) _ hs]
    · rename_i o h
      rw [body (by simp [h]), Rule.runWith, h]
      dsimp only
      rw [Rule.deepens hcall (next (.ok o)) _ hs]

end

end Parsers

namespace Grammar

variable {g : Grammar} {items : Items}

theorem deepens_call (g : Grammar) (items : Items) (depth handle : Nat) :
    Deepens (g.call items depth handle) (g.call items (depth + 1) handle) := by
  induction depth generalizing handle with
  | zero => exact fun c hc => absurd rfl hc
  | succ depth ih =>
    intro c hc
    rw [call] at hc ⊢
    rw [call]
    cases hp : g.definition? handle with
    | none => rfl
    | some p =>
      rw [hp] at hc
      exact deepens_attempt (Parser.deepens ih p) c hc

/-- A run that ended is the run at every greater depth. -/
theorem runWithin_of_le {p : Parser} {c : Cursor} {d d' : Nat} (hd : d ≤ d')
    (h : (p.runWithin g items d c).ending ≠ .exhausted) :
    p.runWithin g items d' c = p.runWithin g items d c := by
  induction hd with
  | refl => rfl
  | step hd ih =>
    rw [← ih] at h ⊢
    exact Parser.deepens (g.deepens_call items _) p c h

end Grammar

end Backtrack
