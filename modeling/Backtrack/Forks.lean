import Backtrack.Run
import Backtrack.Span.Adjust

/-!
# Trees of streams

Streams are forked from one another in any order, read from, committed, and closed.  They are
numbered as they are opened and none is ever forgotten, so a parent may move on while a fork of it
is open and two forks of one stream may both be merged.  `Forks.perform` is one operation on one
stream; merging builds the parent's new span with the checked constructor.

The parent of a fork that was handed in is outside the tree, so such a fork notes where it stood
when it was merged.
-/

namespace Backtrack

/-- Where a stream comes from. -/
inductive Origin where
  /-- It was opened on a source. -/
  | source
  /-- It is a fork that was handed in; its parent is outside the tree. -/
  | handedIn
  /-- It was forked from the stream with this number. -/
  | forkOf (parent : Nat)
  deriving DecidableEq

/-- One stream of a tree. -/
structure Branch where
  cursor : Cursor
  origin : Origin
  /-- Whether closing the stream merges it into its parent. -/
  committed : Bool := false
  /-- Where the stream stood when it was last merged into a parent outside the tree. -/
  merged : Option Cursor := none

namespace Branch

/-- A fork of the stream, which has number `i`, as it is opened. -/
def forkOf (b : Branch) (i : Nat) : Branch := { cursor := b.cursor.fork, origin := .forkOf i }

/-- The parent outside the tree, which stood at `c` when the stream was handed in. -/
def outer (b : Branch) (c : Cursor) : Cursor := b.merged.elim c c.merge

/-- Merged once more, the parent is as the last merge alone makes it, so no earlier one is noted. -/
theorem merge_outer (b : Branch) (c d : Cursor) : (b.outer c).merge d = c.merge d := by
  unfold outer
  cases b.merged <;> rfl

@[simp] theorem cursor_forkOf (b : Branch) (i : Nat) : (b.forkOf i).cursor = b.cursor.fork := rfl
@[simp] theorem origin_forkOf (b : Branch) (i : Nat) : (b.forkOf i).origin = .forkOf i := rfl
@[simp] theorem committed_forkOf (b : Branch) (i : Nat) : (b.forkOf i).committed = false := rfl
@[simp] theorem merged_forkOf (b : Branch) (i : Nat) : (b.forkOf i).merged = none := rfl

end Branch

/-- Streams over one source, numbered in the order in which they were opened. -/
structure Forks where
  branches : Array Branch

/-- What can be done with a stream, apart from parsing from it. -/
inductive Operation where
  /-- Reads the next item. -/
  | next
  /-- Opens a fork of it. -/
  | fork
  | commit
  | uncommit
  /-- Commits it and gives the match of a value. -/
  | matched (value : Value)
  /-- Closes it: if it is committed, it is merged into its parent. -/
  | close
  /-- Leaves it by an exception: it is not merged. -/
  | abort
  /-- Looks where it stands. -/
  | inspect
  /-- Asks how many items are left. -/
  | measure

/-- What an operation comes to. -/
inductive Answer where
  | done
  | item (outcome : Outcome)
  /-- The number of the fork that was opened. -/
  | opened (number : Nat)
  | standing (cursor : Cursor)
  | measured (remaining : Nat)
  | refused (fault : Fault)

namespace Forks

/-- The tree of one stream. -/
def single (c : Cursor) (origin : Origin) : Forks := ⟨#[{ cursor := c, origin }]⟩

/-- The tree of a stream that was just opened on a source. -/
abbrev opened : Forks := single .start .source

/-- The stream with a number. -/
def get? (s : Forks) (i : Nat) : Option Branch := s.branches[i]?

/-- Replaces the stream with a number, if there is one. -/
def set (s : Forks) (i : Nat) (b : Branch) : Forks := ⟨s.branches.setIfInBounds i b⟩

/-- Opens a stream. -/
def push (s : Forks) (b : Branch) : Forks := ⟨s.branches.push b⟩

/-- Merges a fork's cursor into its parent. -/
def mergeInto (s : Forks) (parent : Nat) (fork : Cursor) : Answer × Forks :=
  match s.get? parent with
  | none => (.refused (.unknownStream parent), s)
  | some b =>
    match Span.make b.cursor.span.start fork.span.stop with
    | .ok span => (.done, s.set parent { b with cursor := ⟨fork.position, span⟩ })
    | .error f => (.refused f, s.set parent { b with cursor := ⟨fork.position, b.cursor.span⟩ })

/-- One operation on the stream with number `i`. -/
def perform (items : Items) (op : Operation) (i : Nat) (s : Forks) : Answer × Forks :=
  match s.get? i with
  | none => (.refused (.unknownStream i), s)
  | some b =>
    match op with
    | .next =>
      match b.cursor.next items with
      | .error f => (.refused f, s)
      | .ok (some v, c) => (.item (.matched v), s.set i { b with cursor := c })
      | .ok (none, c) => (.item .notMatched, s.set i { b with cursor := c })
    | .fork => (.opened s.branches.size, s.push (b.forkOf i))
    | .commit => (.done, s.set i { b with committed := true })
    | .uncommit => (.done, s.set i { b with committed := false })
    | .matched v => (.item (.matched v), s.set i { b with committed := true })
    | .close =>
      if b.committed then
        match b.origin with
        | .source => (.done, s)
        | .handedIn => (.done, s.set i { b with merged := some b.cursor })
        | .forkOf parent => s.mergeInto parent b.cursor
      else (.done, s)
    | .abort => (.done, s)
    | .inspect => (.standing b.cursor, s)
    | .measure =>
      match b.cursor.remaining items with
      | .error f => (.refused f, s)
      | .ok n => (.measured n, s)

/-- The tree after operations on streams given by number, in order. -/
def performAll (items : Items) (script : List (Operation × Nat)) (s : Forks) : Forks :=
  script.foldl (fun s step => (s.perform items step.1 step.2).2) s

/-- Runs a parser's body on the stream with number `i`. -/
def runOn (body : Cursor → Run Cursor) (i : Nat) (s : Forks) : Run Forks :=
  match s.get? i with
  | none => .raise (.unknownStream i) s
  | some b =>
    let r := body b.cursor
    r.withState (s.set i { b with cursor := r.state })

/-- A line about a stream: what it is, where it stands in how many items, and its span. -/
def describe (items : Items) (b : Branch) : Except Fault String :=
  let kind := match b.origin with
    | .source => "Stream"
    | _ => "Transaction"
  items.count.map fun n => s!"<{kind} at {b.cursor.position}/{n} span={b.cursor.span.brief}>"

/-! ### The streams of a tree -/

theorem get?_single (c : Cursor) (o : Origin) (i : Nat) :
    (single c o).get? i = if i = 0 then some { cursor := c, origin := o } else none := by
  cases i <;> simp [single, get?]

theorem get?_set {s : Forks} {i : Nat} {b : Branch} (h : s.get? i = some b) (b' : Branch)
    (k : Nat) :
    (s.set i b').get? k = if k = i then some b' else s.get? k := by
  have hi : i < s.branches.size := (Array.getElem?_eq_some_iff.1 h).1
  by_cases hk : k = i
  · subst hk
    simp [set, get?, hi]
  · simp [set, get?, hk, Array.getElem?_setIfInBounds_ne (Ne.symm hk)]

@[simp] theorem get?_set_self {s : Forks} {i : Nat} {b : Branch} (h : s.get? i = some b)
    (b' : Branch) : (s.set i b').get? i = some b' := by
  rw [get?_set h, if_pos rfl]

/-- Replacing a stream by itself changes nothing. -/
theorem set_self {s : Forks} {i : Nat} {b : Branch} (h : s.get? i = some b) : s.set i b = s := by
  obtain ⟨hi, rfl⟩ := Array.getElem?_eq_some_iff.1 h
  refine congrArg Forks.mk (Array.ext_getElem? fun k => ?_)
  rw [Array.getElem?_setIfInBounds]
  split
  · rename_i hk
    rw [← hk, Array.getElem?_eq_getElem hi]
  · rfl

theorem get?_push (s : Forks) (b : Branch) (k : Nat) :
    (s.push b).get? k = if k = s.branches.size then some b else s.get? k := by
  simp [push, get?, Array.getElem?_push]

@[simp] theorem size_set (s : Forks) (i : Nat) (b : Branch) :
    (s.set i b).branches.size = s.branches.size := by
  simp [set]

@[simp] theorem size_push (s : Forks) (b : Branch) :
    (s.push b).branches.size = s.branches.size + 1 := by
  simp [push]

theorem lt_size_of_get? {s : Forks} {i : Nat} {b : Branch} (h : s.get? i = some b) :
    i < s.branches.size :=
  (Array.getElem?_eq_some_iff.1 h).1

@[simp] theorem performAll_nil (items : Items) (s : Forks) : s.performAll items [] = s := rfl

theorem performAll_append (items : Items) (before after : List (Operation × Nat)) (s : Forks) :
    s.performAll items (before ++ after) = (s.performAll items before).performAll items after := by
  simp [performAll]

theorem performAll_singleton (items : Items) (op : Operation) (i : Nat) (s : Forks) :
    s.performAll items [(op, i)] = (s.perform items op i).2 := rfl

end Forks

end Backtrack
