/-!
# Texts

A text is a list of code points.  Surrogates are code points too: an escape sequence may name one,
and a parsed text keeps it as it was named.  `Text.ofString` embeds strings, which hold scalars
only, and `Text.toString` goes back, writing a replacement character for a surrogate.
-/

namespace Backtrack

/-- A code point: a number below `0x110000`, surrogates included. -/
abbrev CodePoint := Fin 0x110000

namespace CodePoint

/-- The code point of a character. -/
def ofChar (c : Char) : CodePoint :=
  ⟨c.toNat, by
    have h := c.valid
    simp only [UInt32.isValidChar, Nat.isValidChar] at h
    have : c.toNat = c.val.toNat := rfl
    omega⟩

/-- The character of a scalar, and the replacement character for a surrogate. -/
def toChar (c : CodePoint) : Char :=
  if c.val.isValidChar then Char.ofNat c.val else '\uFFFD'

/-- The code points from `lo` to `hi`, both included, in ascending order. -/
def interval (lo hi : Char) : List CodePoint :=
  (List.range' lo.toNat (hi.toNat + 1 - lo.toNat)).filterMap fun n =>
    if h : n < 0x110000 then some ⟨n, h⟩ else none

@[simp] theorem val_ofChar (c : Char) : (ofChar c).val = c.toNat := rfl

theorem mem_interval {lo hi : Char} {c : CodePoint} :
    c ∈ interval lo hi ↔ lo.toNat ≤ c.val ∧ c.val ≤ hi.toNat := by
  simp only [interval, List.mem_filterMap, List.mem_range'_1]
  constructor
  · rintro ⟨n, hn, hc⟩
    split at hc
    · cases hc
      dsimp only
      omega
    · cases hc
  · intro h
    exact ⟨c.val, by omega, by simp [c.isLt]⟩

end CodePoint

/-- A text: a sequence of code points. -/
abbrev Text := List CodePoint

namespace Text

/-- The text of a list of characters. -/
def ofChars (cs : List Char) : Text := cs.map CodePoint.ofChar

/-- The text of a string. -/
def ofString (s : String) : Text := ofChars s.toList

/-- The characters of a text, a replacement character standing for each surrogate. -/
def toString (t : Text) : String := String.ofList (t.map CodePoint.toChar)

@[simp] theorem ofChars_nil : ofChars [] = [] := rfl

@[simp] theorem ofChars_cons (c : Char) (cs : List Char) :
    ofChars (c :: cs) = CodePoint.ofChar c :: ofChars cs := rfl

@[simp] theorem ofChars_append (s t : List Char) :
    ofChars (s ++ t) = ofChars s ++ ofChars t := by
  simp [ofChars]

end Text

end Backtrack
