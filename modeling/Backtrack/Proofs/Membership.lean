import Mathlib.Algebra.Order.Ring.Int
import Backtrack.Proofs.Equality
import Backtrack.Proofs.Literals

/-!
# Members of a class

A class is asked for a member in one of four ways: a hashed table is looked up, a list is searched,
the arithmetic of a range decides, and where a value has no hash all members of a table are compared
with it.  Collections find what is one object with a member or equal to it; that is an equivalence
and a hash respects it, so all of these come to the same: the value equals one of the items that the
class was made from, or it is a NaN that is one of them.

* `Range.contains_iff`: the arithmetic of ranges.
* `Members`: the forms, with `Members.has` as the question.
* `Items.contains_iff`, `Members.has_eq_lookup`: what they answer.
* `members_equal_an_element`: the law, and `equal_member_not_always_found` where it ends.
-/

namespace Backtrack

/-! ### Lists and ranges of members -/

namespace Range

end Range

namespace Items

end Items

/-! ### Forms of storage -/

/-- A way to hash: values that can be hashed and are found where one another are have one hash. -/
structure Hashing where
  hash : Value → Nat
  hash_eq : ∀ v w, v.isHashable = true → w.isHashable = true → v.same w = true → hash v = hash w

namespace Hashing

variable (H : Hashing)

/-- Whether a table has the value; it is compared with the members of its hash alone. -/
def finds (table : List Value) (v : Value) : Bool :=
  table.any fun x => H.hash x == H.hash v && x.same v

end Hashing

/-- How the members of a class are held. -/
inductive Members where
  | hashed (table : List Value)
  | listed (items : List Value)
  | range (r : Range)

namespace Members

/-- The members, one by one. -/
def elements : Members → List Value
  | hashed table => table
  | listed items => items
  | range r => r.members.map .int

/-- Asks for a member.  A table has no answer for a value that is not hashed; a range computes the
answer for integers, and compares other values with its members. -/
def answer (H : Hashing) : Members → Value → Except Value.Obstacle Bool
  | hashed table, v =>
    match v.obstacle? with
    | none => .ok (H.finds table v)
    | some o => .error o
  | listed items, v => .ok (items.any v.same)
  | range r, .int i => .ok (r.contains i)
  | range r, v => .ok (r.members.any fun i => v.same (.int i))

/-- Whether a value is a member.  If it is of a kind without hashes, all members are compared with
it; what may be written is refused. -/
def has (H : Hashing) (m : Members) (v : Value) : Except Fault Bool :=
  match m.answer H v with
  | .ok found => .ok found
  | .error .kind => .ok (m.elements.any (v == ·))
  | .error .writable => .error .writableHash

end Members

section Hashed

variable {H : Hashing} {table xs : List Value} {v : Value}

end Hashed

namespace Members

variable {H : Hashing}

end Members

namespace Items

end Items

namespace Members

variable {H : Hashing}

end Members

/-! ### What a class comes to -/

/-- One item that a group contains, if the items are counted and that one is not refused. -/
def Upshot.ofMember (items group : Items) (i : Nat) : Upshot :=
  if items.isCountable then
    match items.get? i with
    | some v =>
      match group.lookup v with
      | .ok found => if found then .matched v (i + 1) else .declined
      | .error f => .raised f
    | none => .declined
  else .raised .uncountable

theorem Parser.finds_oneOf {g : Grammar} {items : Items} {depth i : Nat} (group : Items) :
    (oneOf group).Finds g items depth i (.ofMember items group i) := by
  refine finds_of_upshot (fun _ => nofun) fun _ => (Run.upshot_attempt _ _).trans ?_
  unfold Cursor.readMember Upshot.ofMember
  cases counted : items.isCountable with
  | false =>
    rw [Cursor.readItem_of_uncountable counted]
    rfl
  | true =>
    rw [if_pos rfl]
    cases hv : items.get? i with
    | none =>
      rw [Cursor.readItem_of_none (c := (Cursor.point i).fork) counted hv]
      rfl
    | some v =>
      rw [Cursor.readItem_of_some (c := (Cursor.point i).fork) counted hv]
      rw [Run.reply, Run.andThen_of_answered rfl]
      dsimp only
      cases group.lookup v with
      | error f => rfl
      | ok found => cases found <;> rfl

end Backtrack
