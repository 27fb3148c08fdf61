import Backtrack.Fault

/-!
# Sequences of items

What a stream reads from and what literals and item classes are made of.  Texts, byte strings and
ranges keep their own compact form, and their items are made when they are asked for; a range in
particular may be far too long to be listed.  `Items.get?` is the view that everything else is
stated with.

How many items there are is a question of its own, because there is a greatest number for an answer.
What is stored is never so long, but a range may be.
-/

namespace Backtrack

/-- An indexable sequence of items. -/
inductive Items where
  | text (chars : Array CodePoint)
  | bytes (data : Array UInt8)
  | range (r : Range)
  | values (items : Array Value)

namespace Items

/-- The number of items. -/
def size : Items → Nat
  | text chars => chars.size
  | bytes data => data.size
  | range r => r.size
  | values items => items.size

/-- The greatest number of items that are counted. -/
def maxCount : Nat := 0x7fffffffffffffff

/-- Whether the items are counted.  Those that are stored are, for no store holds more. -/
def isCountable : Items → Bool
  | range r => r.size ≤ maxCount
  | _ => true

/-- The items can be stored: they are no more than are counted.  A range is stored without them. -/
def IsStorable : Items → Prop
  | range _ => True
  | items => items.size ≤ maxCount

/-- The number of items, if they are counted. -/
def count (items : Items) : Except Fault Nat :=
  if items.isCountable then .ok items.size else .error .uncountable

/-- The item with index `k`. -/
def get? : Items → Nat → Option Value
  | text chars, k => chars[k]?.map Value.char
  | bytes data, k => data[k]?.map Value.byte
  | range r, k => (r.get? k).map Value.int
  | values items, k => items[k]?

/-- Whether some item is `v` or equals it. -/
def contains : Items → Value → Bool
  | text chars, .text [c] => chars.contains c
  | text _, _ => false
  | bytes data, v => v.toInt?.any fun i => data.any fun b => (b.toNat : Int) == i
  | range r, v => v.toInt?.any r.contains
  | values items, v => items.any v.same

/-- What keeps the items from being hashed. -/
def obstacle? : Items → Option Value.Obstacle
  | values items => Value.obstacleAmong? items.toList
  | _ => none

/-- Whether the members of a class with these items are looked up by their hashes.  Those of a range
are computed, and those that cannot be hashed are searched. -/
def isHashed : Items → Bool
  | range _ => false
  | items => items.obstacle?.isNone

/-- Asks a class with these items for a member.  A value of a kind without hashes is compared with
all members, but a view that may be written is refused. -/
def lookup (group : Items) (v : Value) : Except Fault Bool :=
  if v.obstacle? = some .writable ∧ group.isHashed then .error .writableHash
  else .ok (group.contains v)

/-- Reading the items, or asking a class for one of them, may be refused with the fault. -/
def Refuses (items : Items) : Fault → Prop
  | .uncountable => items.isCountable = false
  | .writableHash => ∃ k v, items.get? k = some v ∧ v.obstacle? = some .writable
  | _ => False

/-- The items of a text. -/
def ofText (t : Text) : Items := text t.toArray

/-- The items of a byte string. -/
def ofBytes (data : List UInt8) : Items := bytes data.toArray

/-- The first `count` items. -/
def take (items : Items) (count : Nat) : List Value :=
  (List.range (min count items.size)).filterMap items.get?

/-- The sequence as a value. -/
def toValue : Items → Value
  | text chars => .text chars.toList
  | bytes data => .bytes .fixed data.toList
  | range r => .range r
  | values items => .tuple items.toList

/-- Of what can be stored, exactly what is too long is not counted. -/
theorem IsStorable.isCountable_iff {items : Items} (h : items.IsStorable) :
    items.isCountable = true ↔ items.size ≤ maxCount := by
  cases items with
  | range r => exact decide_eq_true_iff
  | text | bytes | values => exact ⟨fun _ => h, fun _ => rfl⟩

theorem count_of_countable {items : Items} (h : items.isCountable = true) :
    items.count = .ok items.size := if_pos h

theorem count_of_uncountable {items : Items} (h : items.isCountable = false) :
    items.count = .error .uncountable := if_neg (Bool.eq_false_iff.1 h)

theorem lookup_of_obstacle?_ne {v : Value} (h : v.obstacle? ≠ some .writable) (group : Items) :
    group.lookup v = .ok (group.contains v) := by
  simp [lookup, h]

/-- A value is looked up or refused. -/
theorem lookup_eq (group : Items) (v : Value) :
    group.lookup v = .ok (group.contains v) ∨
      v.obstacle? = some .writable ∧ group.lookup v = .error .writableHash := by
  unfold lookup
  split <;> rename_i h
  · exact .inr ⟨h.1, rfl⟩
  · exact .inl rfl

@[simp] theorem isCountable_ofText (t : Text) : (ofText t).isCountable = true := rfl

@[simp] theorem isCountable_ofBytes (data : List UInt8) : (ofBytes data).isCountable = true := rfl

@[simp] theorem size_ofText (t : Text) : (ofText t).size = t.length := by simp [ofText, size]

@[simp] theorem get?_ofText (t : Text) (k : Nat) : (ofText t).get? k = t[k]?.map Value.char := by
  simp [ofText, get?]

@[simp] theorem size_ofBytes (data : List UInt8) : (ofBytes data).size = data.length := by
  simp [ofBytes, size]

@[simp] theorem get?_ofBytes (data : List UInt8) (k : Nat) :
    (ofBytes data).get? k = data[k]?.map Value.byte := by
  simp [ofBytes, get?]

theorem get?_eq_none_iff {items : Items} {k : Nat} : items.get? k = none ↔ items.size ≤ k := by
  cases items <;> simp [get?, size, Range.get?_eq_none_iff]

theorem isSome_get?_iff {items : Items} {k : Nat} : (items.get? k).isSome ↔ k < items.size := by
  rw [Option.isSome_iff_ne_none, ne_eq, get?_eq_none_iff, Nat.not_le]

end Items

/-- What the items of a stream, a literal or a class can be taken from: a value, or the elements of
a collection that is no value itself, in the order in which it yields them. -/
inductive Source where
  | value (v : Value)
  | elements (items : List Value)

namespace Source

/-- The items of a source.  Collections that may change or run out are copied. -/
def items : Source → Except Fault Items
  | value (.text t) => .ok (.ofText t)
  | value (.bytes _ data) => .ok (.ofBytes data)
  | value (.range r) => .ok (.range r)
  | value (.tuple xs) => .ok (.values xs.toArray)
  | value (.list xs) => .ok (.values xs.toArray)
  | value v => .error (.notASequence v)
  | elements xs => .ok (.values xs.toArray)

/-- The output of a literal made from a source: the value itself, or the tuple of the elements. -/
def output : Source → Value
  | value v => v
  | elements xs => .tuple xs

end Source

end Backtrack
