import Backtrack.Calls
import Backtrack.Parser.Build
import Backtrack.Proofs.Simulation
import Backtrack.Proofs.Upshots

/-!
# Alternatives

The alternatives of a choice are tried one after the other where the choice is, each on a fork of
its own, until one does not decline.  What this amounts to is a fold over the alternatives: the
choice comes to what that one comes to, and the log and the calls are those of the tries up to it.
The fold is associative, so it does not matter how alternatives are bracketed, nor how many forks
lie between them and the stream.

* `Account`, with `Account.orElse` and `Account.first`: what tries amount to.
* `Parser.account_choice`, `Parser.account_orElse`: choices, and alternatives added to a parser.
* `Bracketing`: ways to put parsers together by alternation.
* `bracketing_is_irrelevant`: the law.
-/

namespace Backtrack

/-! ### Accounts -/

/-- Whether an event is the begin or the end of the call of a choice. -/
def Event.ofChoice : Event → Bool
  | entered (.choice ..) => true
  | left (.choice ..) _ => true
  | _ => false

/-- What a try comes to, what it logs, and the calls made in it, those of choices left out. -/
@[ext] structure Account where
  upshot : Upshot
  log : List Entry
  calls : List Event

namespace Account

/-- What two tries amount to, the second of which is made where the first declines. -/
def orElse (x y : Account) : Account :=
  match x.upshot with
  | .declined => ⟨y.upshot, x.log ++ y.log, x.calls ++ y.calls⟩
  | _ => x

/-- What tries in a row amount to, up to the first that does not decline. -/
def first : List Account → Account
  | [] => ⟨.declined, [], []⟩
  | x :: xs => x.orElse (first xs)

theorem orElse_assoc (x y z : Account) : (x.orElse y).orElse z = x.orElse (y.orElse z) := by
  obtain ⟨upshot, log, calls⟩ := x
  obtain ⟨upshot', log', calls'⟩ := y
  cases upshot
  case declined => cases upshot' <;> simp [orElse]
  all_goals rfl

@[simp] theorem first_singleton (x : Account) : first [x] = x := by
  obtain ⟨upshot, log, calls⟩ := x
  cases upshot <;> simp [first, orElse]

theorem first_append (xs ys : List Account) :
    first (xs ++ ys) = (first xs).orElse (first ys) := by
  induction xs with
  | nil => simp [first, orElse]
  | cons x xs ih => rw [List.cons_append, first, ih, first, orElse_assoc]

/-- After an alternative that does not decline nothing is tried. -/
theorem first_of_decisive (xs : List Account) {y : Account} (ys : List Account)
    (decisive : y.upshot ≠ .declined) : first (xs ++ y :: ys) = first (xs ++ [y]) := by
  have last : first (y :: ys) = first [y] := by
    rw [first_singleton]
    obtain ⟨upshot, log, calls⟩ := y
    cases upshot with
    | declined => exact absurd rfl decisive
    | matched | failed | raised | exhausted => rfl
  rw [first_append, last, first_append]

end Account

namespace Observed

/-- What an observed run amounts to. -/
def account (o : Observed) : Account :=
  ⟨o.run.upshot, o.run.log, o.events.filter fun e => !e.ofChoice⟩

/-- The account does not tell whether the run was on a fork. -/
theorem account_attempt (body : Cursor → Observed) (c : Cursor) :
    (attempt body c).account = (body c.fork).account := by
  rw [account, account, run_attempt, Run.upshot_attempt, log_attempt]
  rfl

theorem account_within_choice (p : Parser) (ps : List Parser) (o : Observed) :
    (within (.choice p ps) o).account = o.account := by
  simp [account, within, Event.ofChoice]

theorem account_orElse {o : Observed} {next : Cursor → Observed} {y : Account}
    (h : o.run.ending = .answered .notMatched → (next o.run.state).account = y) :
    (o.orElse next).account = o.account.orElse y := by
  obtain ⟨⟨ending, state, log⟩, events⟩ := o
  rcases ending with _ | f | (v | _ | e)
  case answered.notMatched =>
    rw [← h rfl, orElse, andThen_of_answered rfl]
    simp [account, Account.orElse, Run.upshot, Ending.upshot]
  all_goals simp [orElse, andThen, Run.andThen, account, Account.orElse, Run.upshot, Ending.upshot,
    silent, Run.answer, Run.after]

end Observed

section Parsers

variable {g : Grammar} {items : Items} {depth i : Nat} {c : Cursor}

namespace Parser

/-- What a try of the parser at place `i` amounts to. -/
def account (g : Grammar) (items : Items) (depth : Nat) (p : Parser) (i : Nat) : Account :=
  (p.observeWithin g items depth (.point i)).account

theorem upshot_account (p : Parser) :
    (p.account g items depth i).upshot = p.upshot g items depth i := by
  rw [upshot, ← p.run_observeWithin g depth]
  rfl

/-- All alternatives are tried where the first one is. -/
theorem account_insideFirst (ps : List Parser) (hc : c.Placed items) :
    (insideFirst items (g.observeCall items depth) ps c).account =
      .first (ps.map fun p => p.account g items depth c.position) := by
  induction ps with
  | nil => rfl
  | cons p ps ih =>
    have tried : (Observed.attempt (p.observeWithin g items depth) c).account =
        p.account g items depth c.position := by
      rw [Observed.account_attempt, hc.fork_eq]
      rfl
    rw [List.map_cons, Account.first, ← tried, ← ih]
    refine Observed.account_orElse fun declined => ?_
    rw [Observed.run_attempt] at declined ⊢
    rw [state_attempt_of_declined declined]

/-- A choice amounts to its alternatives in a row. -/
theorem account_observeWithin_choice (g : Grammar) (depth : Nat) (p : Parser) (ps : List Parser)
    (hc : c.Placed items) :
    ((choice p ps).observeWithin g items depth c).account =
      .first ((p :: ps).map fun q => q.account g items depth c.position) := by
  refine (Observed.account_within_choice p ps _).trans ((Observed.account_attempt _ c).trans ?_)
  exact account_insideFirst (p :: ps) hc.fork

theorem account_choice (p : Parser) (ps : List Parser) (hi : i ≤ items.size) :
    (choice p ps).account g items depth i =
      .first ((p :: ps).map fun q => q.account g items depth i) :=
  account_observeWithin_choice g depth p ps (Cursor.placed_point hi)

/-- Adding an alternative to a parser, which extends the parser if it is a choice. -/
theorem account_orElse (p q : Parser) (hi : i ≤ items.size) :
    (p.orElse q).account g items depth i =
      (p.account g items depth i).orElse (q.account g items depth i) := by
  unfold orElse
  split
  · rename_i p ps
    rw [account_choice _ _ hi, account_choice _ _ hi, ← List.cons_append, List.map_append,
      Account.first_append, List.map_singleton, Account.first_singleton]
  · rw [account_choice _ _ hi, List.map_cons, Account.first, List.map_singleton,
      Account.first_singleton]

end Parser

end Parsers

/-! ### Bracketings -/

/-- A way to put parsers together by alternation. -/
inductive Bracketing where
  | member (p : Parser)
  /-- One, or else another. -/
  | either (first second : Bracketing)
  /-- A choice, among the members of a list or among separate arguments. -/
  | among (listed : Bool) (first : Bracketing) (others : List Bracketing)

namespace Bracketing

mutual

/-- The parser that is built. -/
def build : Bracketing → Except Fault Parser
  | member p => .ok p
  | either s t => do return (← s.build).orElse (← t.build)
  | among listed t ts => do
    let members := ((← t.build) :: (← buildAll ts)).map Operand.parser
    if listed then Parser.choiceAmong members else Parser.choiceFrom members

/-- The parsers that are built. -/
def buildAll : List Bracketing → Except Fault (List Parser)
  | [] => .ok []
  | t :: ts => do return (← t.build) :: (← buildAll ts)

end

mutual

/-- The parsers that are put together, in order. -/
def members : Bracketing → List Parser
  | member p => [p]
  | either s t => s.members ++ t.members
  | among _ t ts => t.members ++ membersAll ts

/-- The members of all the bracketings, in order. -/
def membersAll : List Bracketing → List Parser
  | [] => []
  | t :: ts => t.members ++ membersAll ts

end

end Bracketing

theorem Operand.mapM_toParser (ps : List Parser) :
    (ps.map Operand.parser).mapM Operand.toParser = .ok ps := by
  induction ps with
  | nil => rfl
  | cons p ps ih =>
    rw [List.map_cons, List.mapM_cons, ih]
    rfl

namespace Parser

theorem choiceAmong_parsers (p : Parser) (ps : List Parser) :
    choiceAmong ((p :: ps).map .parser) = .ok (choice p ps) := by
  rw [choiceAmong, Operand.mapM_toParser]
  rfl

theorem choiceFrom_parsers (p : Parser) (ps : List Parser) :
    choiceFrom ((p :: ps).map .parser) = .ok (choice p ps) :=
  choiceAmong_parsers p ps

theorem exists_orElse_eq (p q : Parser) : ∃ r rs, p.orElse q = choice r rs := by
  unfold orElse
  split
  · exact ⟨_, _, rfl⟩
  · exact ⟨_, _, rfl⟩

end Parser

namespace Bracketing

theorem build_either {s t : Bracketing} {p q : Parser} (hs : s.build = .ok p)
    (ht : t.build = .ok q) : (either s t).build = .ok (p.orElse q) := by
  rw [build, hs, ht]
  rfl

theorem build_among {t : Bracketing} {ts : List Bracketing} {p : Parser} {ps : List Parser}
    (listed : Bool) (ht : t.build = .ok p) (hts : buildAll ts = .ok ps) :
    (among listed t ts).build = .ok (.choice p ps) := by
  rw [build, ht, hts]
  cases listed
  · exact Parser.choiceFrom_parsers p ps
  · exact Parser.choiceAmong_parsers p ps

mutual

/-- What is built amounts to its members in a row. -/
theorem exists_build : ∀ t : Bracketing, ∃ p, t.build = .ok p ∧
    ∀ g items depth, ∀ i ≤ Items.size items,
      p.account g items depth i = .first (t.members.map fun q => q.account g items depth i)
  | member p => ⟨p, rfl, fun _ _ _ _ _ => (Account.first_singleton _).symm⟩
  | either s t => by
    obtain ⟨p, hs, hp⟩ := s.exists_build
    obtain ⟨q, ht, hq⟩ := t.exists_build
    refine ⟨_, build_either hs ht, fun g items depth i hi => ?_⟩
    rw [Parser.account_orElse p q hi, hp g items depth i hi, hq g items depth i hi, members,
      List.map_append, Account.first_append]
  | among listed t ts => by
    obtain ⟨p, ht, hp⟩ := t.exists_build
    obtain ⟨ps, hts, hps⟩ := exists_buildAll ts
    refine ⟨_, build_among listed ht hts, fun g items depth i hi => ?_⟩
    rw [Parser.account_choice p ps hi, List.map_cons, Account.first, hp g items depth i hi,
      hps g items depth i hi, members, List.map_append, Account.first_append]

theorem exists_buildAll : ∀ ts : List Bracketing, ∃ ps, buildAll ts = .ok ps ∧
    ∀ g items depth, ∀ i ≤ Items.size items,
      Account.first (ps.map fun q => q.account g items depth i) =
        .first ((membersAll ts).map fun q => q.account g items depth i)
  | [] => ⟨[], rfl, fun _ _ _ _ _ => rfl⟩
  | t :: ts => by
    obtain ⟨p, ht, hp⟩ := t.exists_build
    obtain ⟨ps, hts, hps⟩ := exists_buildAll ts
    refine ⟨p :: ps, by rw [buildAll, ht, hts]; rfl, fun g items depth i hi => ?_⟩
    rw [List.map_cons, Account.first, hp g items depth i hi, hps g items depth i hi, membersAll,
      List.map_append, Account.first_append]

end

/-- What is built of more than one parser is a choice. -/
theorem exists_eq_choice {t : Bracketing} (several : 2 ≤ t.members.length) {p : Parser}
    (h : t.build = .ok p) : ∃ q qs, p = .choice q qs := by
  cases t with
  | member q => simp [members] at several
  | either s t =>
    obtain ⟨q, hs, -⟩ := s.exists_build
    obtain ⟨r, ht, -⟩ := t.exists_build
    obtain rfl : q.orElse r = p := Except.ok.inj ((build_either hs ht).symm.trans h)
    exact q.exists_orElse_eq r
  | among listed t ts =>
    obtain ⟨q, ht, -⟩ := t.exists_build
    obtain ⟨qs, hts, -⟩ := exists_buildAll ts
    exact ⟨q, qs, Except.ok.inj (h.symm.trans (build_among listed ht hts))⟩

end Bracketing

/-- On the stream at `c` the parser does what the members do, each of them tried where the stream
stands: it comes to what the first of them comes to that does not decline, and declines if they all
do, and there are the log and the calls of the tries up to that one and no more.  So a member that
logs where it is tried logs the position of `c`. -/
structure Parser.TriesInOrder (g : Grammar) (items : Items) (depth : Nat) (members : List Parser)
    (c : Cursor) (p : Parser) : Prop where
  ending : (p.runWithin g items depth c).ending =
    (Account.first (members.map fun q => q.account g items depth c.position)).upshot.ending
  state : (p.runWithin g items depth c).state =
    (Account.first (members.map fun q => q.account g items depth c.position)).upshot.leaves c
  log : (p.runWithin g items depth c).log =
    (Account.first (members.map fun q => q.account g items depth c.position)).log
  calls : (p.observeWithin g items depth c).account.calls =
    (Account.first (members.map fun q => q.account g items depth c.position)).calls

/-- A parser that tries its members in order is to the stream what any other such parser is. -/
theorem Parser.TriesInOrder.same {g : Grammar} {items : Items} {depth : Nat}
    {members : List Parser} {c : Cursor} {p p' : Parser}
    (h : p.TriesInOrder g items depth members c) (h' : p'.TriesInOrder g items depth members c) :
    p.runWithin g items depth c = p'.runWithin g items depth c ∧
      (p.observeWithin g items depth c).account.calls =
        (p'.observeWithin g items depth c).account.calls := by
  refine ⟨?_, h.calls.trans h'.calls.symm⟩
  have alike : (p'.runWithin g items depth c).Alike some (p.runWithin g items depth c) :=
    ⟨h.ending.trans h'.ending.symm, h.state.trans h'.state.symm, by rw [h.log, h'.log]⟩
  exact alike.eq

/-- Members that amount to the same may stand for one another. -/
theorem Parser.TriesInOrder.congr {g : Grammar} {items : Items} {depth : Nat}
    {members members' : List Parser} {c : Cursor} {p : Parser}
    (h : p.TriesInOrder g items depth members c)
    (same : Account.first (members.map fun q => q.account g items depth c.position) =
      .first (members'.map fun q => q.account g items depth c.position)) :
    p.TriesInOrder g items depth members' c :=
  ⟨same ▸ h.ending, same ▸ h.state, same ▸ h.log, same ▸ h.calls⟩

/-- The members after one that does not decline do not matter. -/
theorem Parser.TriesInOrder.of_decisive {g : Grammar} {items : Items} {depth : Nat} {c : Cursor}
    {ps rest : List Parser} {p q : Parser}
    (h : p.TriesInOrder g items depth (ps ++ q :: rest) c)
    (decisive : (q.account g items depth c.position).upshot ≠ .declined) :
    p.TriesInOrder g items depth (ps ++ [q]) c := by
  refine h.congr ?_
  rw [List.map_append, List.map_append, List.map_cons, List.map_singleton]
  exact Account.first_of_decisive _ _ decisive

theorem Parser.triesInOrder_choice (g : Grammar) {items : Items} (depth : Nat) (p : Parser)
    (ps : List Parser) {c : Cursor} (hc : c.Placed items) :
    (choice p ps).TriesInOrder g items depth (p :: ps) c := by
  have observed := account_observeWithin_choice g depth p ps hc
  obtain ⟨ending, state⟩ := (choice p ps).settles_upshot g depth (fun _ => nofun) hc
  rw [← upshot_account, account_choice p ps hc.le_size] at ending state
  refine ⟨ending, state, ?_, congrArg Account.calls observed⟩
  rw [← run_observeWithin]
  exact congrArg Account.log observed

/-- What is built of more than one parser tries them in order. -/
theorem Bracketing.exists_triesInOrder (g : Grammar) {items : Items} (depth : Nat) (t : Bracketing)
    (several : 2 ≤ t.members.length) {c : Cursor} (hc : c.Placed items) :
    ∃ p, t.build = .ok p ∧ p.TriesInOrder g items depth t.members c := by
  obtain ⟨p, built, amounts⟩ := t.exists_build
  obtain ⟨q, qs, rfl⟩ := exists_eq_choice several built
  refine ⟨_, built, (Parser.triesInOrder_choice g depth q qs hc).congr ?_⟩
  rw [← Parser.account_choice q qs hc.le_size, amounts g items depth c.position hc.le_size]

/-- However more than one parser are put together by alternation, the parser that is built tries
them in order, each where the stream stands and on a fork of its own, until one does not decline.
So all the parsers that are built of them end alike on every stream, leave it in the same state, log
the same and make the same calls, those of choices apart. -/
theorem bracketing_is_irrelevant (g : Grammar) {items : Items} (depth : Nat) (t : Bracketing)
    (several : 2 ≤ t.members.length) {c : Cursor} (hc : c.Placed items) :
    ∃ p, t.build = .ok p ∧ p.TriesInOrder g items depth t.members c ∧
      ∀ t' : Bracketing, t'.members = t.members → ∃ p', t'.build = .ok p' ∧
        p'.runWithin g items depth c = p.runWithin g items depth c ∧
        (p'.observeWithin g items depth c).account.calls =
          (p.observeWithin g items depth c).account.calls := by
  obtain ⟨p, built, inOrder⟩ := t.exists_triesInOrder g depth several hc
  refine ⟨p, built, inOrder, fun t' same => ?_⟩
  obtain ⟨p', built', inOrder'⟩ := t'.exists_triesInOrder g depth (same ▸ several) hc
  rw [same] at inOrder'
  obtain ⟨run, calls⟩ := inOrder'.same inOrder
  exact ⟨p', built', run, calls⟩

/-- A required `a`, whose error is forgiven. -/
def Parser.forgivenA : Parser := .forgive (.require .letterA fun s => .ok (.span s))

/-- A function that commits and declines, a forgiven `a` and any item, bracketed to the right. -/
def Bracketing.rightwards : Bracketing :=
  .either (.member (.custom .commitAndDecline))
    (.among true (.member .forgivenA) [.member .item])

/-- The same bracketed to the left, which is one choice. -/
def Bracketing.leftwards : Bracketing :=
  .either (.either (.member (.custom .commitAndDecline)) (.member .forgivenA)) (.member .item)

/-- From the second item on, both bracketings log one error that is discarded there, and read the
item. -/
theorem bracketing_is_irrelevant_after_commit :
    let items : Items := .ofText (.ofChars ['a', 'b'])
    let c := Cursor.start.advance
    2 ≤ Bracketing.rightwards.members.length ∧ c.Placed items ∧
      Bracketing.leftwards.members = Bracketing.rightwards.members ∧
      ∃ p p', Bracketing.rightwards.build = .ok p ∧ Bracketing.leftwards.build = .ok p' ∧
        p'.runWithin .empty items 0 c = p.runWithin .empty items 0 c ∧
        (p.runWithin .empty items 0 c).ending =
          .answered (.matched (.char (CodePoint.ofChar 'b'))) ∧
        (p.runWithin .empty items 0 c).log = [.discarded (.span (.point 1)) 1] := by
  intro items c
  have placed : c.Placed items := ⟨rfl, by decide⟩
  obtain ⟨p, built, inOrder, all⟩ :=
    bracketing_is_irrelevant .empty 0 .rightwards (by decide) placed
  obtain ⟨p', built', same, -⟩ := all .leftwards rfl
  exact ⟨by decide, placed, rfl, p, p', built, built', same, inOrder.ending.trans rfl,
    inOrder.log.trans rfl⟩

end Backtrack
