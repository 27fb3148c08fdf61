import Backtrack.Grammar

/-!
# Scripts

A script uses one stream at a time: each step is applied to the innermost open transaction, or to
the root if none is open.  `Session.run` runs steps on a tree of streams and gives what each of them
came to.

Steps are `balanced` if they close every transaction they open.  `Script` is such a script by its
structure, `Script.flat` is what it leaves of the reading once every transaction is deleted that was
aborted or not committed when it was closed, and `Script.kept` marks the steps that stay.
-/

namespace Backtrack

/-- A step that reads from a stream. -/
inductive Reading where
  | next
  | parse (p : Parser)

/-- A step that sets the commit flag of a transaction. -/
inductive Mark where
  | commit
  | uncommit
  | matched (v : Value)

/-- A step of a script, applied to the innermost open stream. -/
inductive Step where
  | read (r : Reading)
  | mark (m : Mark)
  /-- Opens a transaction. -/
  | begin
  /-- Closes the transaction. -/
  | exit
  /-- Leaves the transaction by an exception. -/
  | abort

/-- The operation on streams that a mark is. -/
def Mark.operation : Mark → Operation
  | commit => .commit
  | uncommit => .uncommit
  | matched v => .matched v

/-- The commit flag after a mark. -/
def Mark.flag : Mark → Bool
  | commit => true
  | uncommit => false
  | matched _ => true

/-- What an operation on a stream came to, if it gives a result. -/
def Answer.ending? : Answer → Option Ending
  | .item o => some (.answered o)
  | .refused f => some (.raised f)
  | _ => none

/-- The streams of a script and the numbers of those that are open, the innermost first. -/
structure Session where
  forks : Forks
  stack : List Nat

namespace Session

/-- A session on a stream that was just opened. -/
def start : Session := ⟨.opened, [0]⟩

/-- The state of the outermost stream. -/
def root (s : Session) : Option Cursor := (s.forks.get? 0).map (·.cursor)

/-- Performs an operation on the stream with number `i`; the open streams become `stack`. -/
def perform (items : Items) (s : Session) (op : Operation) (i : Nat) (stack : List Nat) :
    Option Ending × Session :=
  ((s.forks.perform items op i).1.ending?, ⟨(s.forks.perform items op i).2, stack⟩)

/-- One step, and what it came to. -/
def step (g : Grammar) (items : Items) (s : Session) (st : Step) : Option Ending × Session :=
  match s.stack with
  | [] => (none, s)
  | top :: rest =>
    match st with
    | .read .next => s.perform items .next top s.stack
    | .read (.parse p) =>
      let r := s.forks.runOn (p.run g items) top
      (some r.ending, ⟨r.state, s.stack⟩)
    | .mark m => s.perform items m.operation top s.stack
    | .begin => s.perform items .fork top (s.forks.branches.size :: s.stack)
    | .exit => s.perform items .close top rest
    | .abort => s.perform items .abort top rest

/-- The steps in order, and what each of them came to. -/
def run (g : Grammar) (items : Items) : List Step → Session → List (Option Ending) × Session
  | [], s => ([], s)
  | st :: steps, s =>
    let (e, s) := s.step g items st
    let (es, s) := run g items steps s
    (e :: es, s)

end Session

/-- Whether every transaction opened is closed again, `depth` of them being open at the start. -/
def balanced : Nat → List Step → Bool
  | depth, [] => depth == 0
  | depth, .begin :: steps => balanced (depth + 1) steps
  | depth, .exit :: steps | depth, .abort :: steps => 0 < depth && balanced (depth - 1) steps
  | depth, .read _ :: steps | depth, .mark _ :: steps => balanced depth steps

/-- A script whose transactions are all closed. -/
inductive Script where
  | done
  | read (r : Reading) (rest : Script)
  | mark (m : Mark) (rest : Script)
  | transaction (body : Script) (aborted : Bool) (rest : Script)

namespace Script

/-- The steps of a script. -/
def steps : Script → List Step
  | done => []
  | read r rest => .read r :: rest.steps
  | mark m rest => .mark m :: rest.steps
  | transaction body aborted rest =>
    .begin :: (body.steps ++ (if aborted then .abort else .exit) :: rest.steps)

/-- The commit flag of the enclosing transaction after a script, given the flag before it.  Only the
marks that are not within a transaction of the script's own count. -/
def flag : Script → Bool → Bool
  | done, b => b
  | read _ rest, b => rest.flag b
  | mark m rest, _ => rest.flag m.flag
  | transaction _ _ rest, b => rest.flag b

/-- Whether a transaction with this body is kept: it is closed while its flag is on. -/
def keeps (body : Script) (aborted : Bool) : Bool := !aborted && body.flag false

/-- The readings that stay when every transaction that is not kept is deleted with all that is
nested inside it. -/
def flat : Script → List Reading
  | done => []
  | read r rest => r :: rest.flat
  | mark _ rest => rest.flat
  | transaction body aborted rest =>
    (if body.keeps aborted then body.flat else []) ++ rest.flat

/-- Which of the steps of a script stay. -/
def kept : Script → List Bool
  | done => []
  | read _ rest => true :: rest.kept
  | mark _ rest => false :: rest.kept
  | transaction body aborted rest =>
    false :: ((if body.keeps aborted then body.kept else List.replicate body.steps.length false) ++
      false :: rest.kept)

end Script

/-- The elements of a list that a mask marks. -/
def select {α : Type} : List Bool → List α → List α
  | true :: mask, a :: l => a :: select mask l
  | false :: mask, _ :: l => select mask l
  | _, _ => []

end Backtrack
