import Backtrack.Parser.Build
import Backtrack.Proofs.Scanning

/-!
# Texts read from their bytes

No character's bytes in UTF-8 begin those of another one, so a text is a prefix of another exactly
if its bytes are.  The literal of a text over the bytes of an encoded text therefore matches where
the literal of the text itself would, and the two leave their streams at the same place: the one
counts it in bytes, the other in characters.

* `utf8Bytes`: the bytes of a text.
* `utf8Bytes_prefix_iff`: prefixes of texts and of their bytes.
* `utf8_literals_follow_texts`: the law.
-/

namespace Backtrack

/-! ### Bytes -/

/-- The bytes of characters in UTF-8. -/
def utf8Bytes (cs : List Char) : List UInt8 := cs.flatMap String.utf8EncodeChar

section Bytes

variable {s t : List Char} {k : Nat}

theorem utf8Bytes_append (s t : List Char) : utf8Bytes (s ++ t) = utf8Bytes s ++ utf8Bytes t :=
  List.flatMap_append

/-- The first byte of a character says how many there are, so characters are told apart by the bytes
in front, whatever follows. -/
theorem utf8Bytes_prefix_iff : utf8Bytes t <+: utf8Bytes s ↔ t <+: s := by
  constructor
  · rintro ⟨rest, same⟩
    refine List.isPrefix_of_utf8Encode_append_eq_utf8Encode rest.toByteArray ?_
    rw [List.utf8Encode, List.utf8Encode, ← List.toByteArray_append]
    exact congrArg List.toByteArray same
  · rintro ⟨rest, rfl⟩
    exact ⟨utf8Bytes rest, (utf8Bytes_append t rest).symm⟩

theorem drop_utf8Bytes (s : List Char) (k : Nat) :
    (utf8Bytes s).drop (utf8Bytes (s.take k)).length = utf8Bytes (s.drop k) := by
  conv_lhs => rw [← List.take_append_drop k s, utf8Bytes_append, List.take_append_drop]
  exact List.drop_left

/-- Where a text begins at character `k`, its bytes end where the bytes of `k` characters and of the
text end. -/
theorem length_utf8Bytes_take_add (h : t <+: s.drop k) :
    (utf8Bytes (s.take k)).length + (utf8Bytes t).length =
      (utf8Bytes (s.take (k + t.length))).length := by
  rw [List.take_add, ← List.prefix_iff_eq_take.1 h, utf8Bytes_append, List.length_append]

end Bytes

theorem CodePoint.ofChar_injective : Function.Injective CodePoint.ofChar := fun c d h => by
  have same : (ofChar c).val = (ofChar d).val := by rw [h]
  exact Char.toNat_inj.1 same

theorem Text.ofString_prefix_drop_iff (s t : String) (k : Nat) :
    ofString t <+: (ofString s).drop k ↔ t.toList <+: s.toList.drop k := by
  rw [ofString, ofString, ofChars, ofChars, ← List.map_drop]
  exact List.prefix_map_iff_of_injective CodePoint.ofChar_injective

/-! ### Literals -/

namespace Parser

variable (g : Grammar) (depth : Nat)

/-- The literal of a text over bytes, where character `k` begins. -/
theorem finds_utf8 (s : List Char) (t : String) (k : Nat) :
    (utf8 t).Finds g (.ofBytes (utf8Bytes s)) depth (utf8Bytes (s.take k)).length
      (if t.toList <+: s.drop k then
        .matched (.text (.ofString t)) (utf8Bytes (s.take (k + t.length))).length
      else .declined) := by
  have starts : (Items.ofBytes (utf8Bytes s)).StartsAt (utf8Bytes (s.take k)).length
      ((utf8Bytes t.toList).map .byte) ↔ t.toList <+: s.drop k := by
    rw [Items.startsAt_ofBytes, drop_utf8Bytes, utf8Bytes_prefix_iff]
  have found : (utf8 t).Finds g (.ofBytes (utf8Bytes s)) depth (utf8Bytes (s.take k)).length _ :=
    finds_literal (fun n => (Items.get?_ofBytes (utf8Bytes t.toList) n).trans
      List.getElem?_map.symm) (.text (.ofString t))
  simp only [Upshot.ofLiteral_of_countable (Items.isCountable_ofBytes _), starts,
    List.length_map] at found
  by_cases stands : t.toList <+: s.drop k
  · rw [if_pos stands, length_utf8Bytes_take_add stands, String.length_toList] at found
    rwa [if_pos stands]
  · rw [if_neg stands] at found
    rwa [if_neg stands]

/-- The literal of a text over characters. -/
theorem finds_word_ofString (s t : String) (k : Nat) :
    (word (.ofString t)).Finds g (.ofText (.ofString s)) depth k
      (if t.toList <+: s.toList.drop k then .matched (.text (.ofString t)) (k + t.length)
      else .declined) := by
  have length : (Text.ofString t).length = t.length := by
    rw [Text.ofString, Text.ofChars, List.length_map, String.length_toList]
  have found : (word (.ofString t)).Finds g (.ofText (.ofString s)) depth k _ := finds_word _
  simpa only [Upshot.ofWord, Text.ofString_prefix_drop_iff, length] using found

end Parser

/-- Over the bytes of a text the literal of another one does what the literal of its characters does
over the text, wherever a character begins: both match exactly where the one text begins with the
other there, give it back, and end at the same character; elsewhere neither moves its stream.  So a
match never ends inside a character. -/
theorem utf8_literals_follow_texts (g : Grammar) (depth : Nat) (s t : String) {c d : Cursor}
    (hc : c.Placed (.ofBytes (utf8Bytes s.toList))) (hd : d.Placed (.ofText (.ofString s)))
    (aligned : c.position = (utf8Bytes (s.toList.take d.position)).length) :
    let bytes := (Parser.utf8 t).runWithin g (.ofBytes (utf8Bytes s.toList)) depth c
    let chars := (Parser.word (.ofString t)).runWithin g (.ofText (.ofString s)) depth d
    let stop := d.position + t.length
    (t.toList <+: s.toList.drop d.position →
      bytes.Settles c
        (.matched (.text (.ofString t)) (utf8Bytes (s.toList.take stop)).length) ∧
      chars.Settles d (.matched (.text (.ofString t)) stop)) ∧
    (¬t.toList <+: s.toList.drop d.position →
      bytes.Settles c .declined ∧ chars.Settles d .declined) := by
  have overBytes := Parser.finds_utf8 g depth s.toList t d.position
  have overChars := Parser.finds_word_ofString g depth s t d.position
  constructor
  · intro starts
    rw [if_pos starts] at overBytes overChars
    rw [← aligned] at overBytes
    exact ⟨overBytes.settles hc, overChars.settles hd⟩
  · intro starts
    rw [if_neg starts] at overBytes overChars
    rw [← aligned] at overBytes
    exact ⟨overBytes.settles hc, overChars.settles hd⟩

/-- After three bytes of the first character, the second one has its first byte in common with the
one looked for, and the third one is it. -/
theorem utf8_literals_follow_texts_after_common_byte :
    let s := "€êé"
    let bytes : Items := .ofBytes (utf8Bytes s.toList)
    let chars : Items := .ofText (.ofString s)
    utf8Bytes s.toList = [0xe2, 0x82, 0xac, 0xc3, 0xaa, 0xc3, 0xa9] ∧
      (Cursor.point 3).Placed bytes ∧ (Cursor.point 1).Placed chars ∧
      ((Parser.utf8 "é").runWithin .empty bytes 0 (.point 3)).Settles (.point 3) .declined ∧
      ((Parser.word (.ofString "é")).runWithin .empty chars 0 (.point 1)).Settles (.point 1)
        .declined ∧
      ((Parser.utf8 "é").runWithin .empty bytes 0 (.point 5)).Settles (.point 5)
        (.matched (.text (.ofString "é")) 7) ∧
      ((Parser.word (.ofString "é")).runWithin .empty chars 0 (.point 2)).Settles (.point 2)
        (.matched (.text (.ofString "é")) 3) := by
  intro s bytes chars
  have listed : s.toList = ['€', 'ê', 'é'] := by decide
  have encoded : utf8Bytes s.toList = [0xe2, 0x82, 0xac, 0xc3, 0xaa, 0xc3, 0xa9] := by
    rw [listed]
    decide
  have word : "é".toList = ['é'] := by decide
  have inBytes (n : Nat) (hn : n ≤ 7) : (Cursor.point n).Placed bytes :=
    Cursor.placed_point (by rw [Items.size_ofBytes, encoded]; exact hn)
  have inChars (n : Nat) (hn : n ≤ 3) : (Cursor.point n).Placed chars :=
    Cursor.placed_point (by rw [Items.size_ofText, Text.ofString, listed]; exact hn)
  have second := (utf8_literals_follow_texts .empty 0 s "é" (inBytes 3 (by decide))
    (inChars 1 (by decide)) (by rw [listed]; decide)).2 (by rw [listed, word]; decide)
  have third := (utf8_literals_follow_texts .empty 0 s "é" (inBytes 5 (by decide))
    (inChars 2 (by decide)) (by rw [listed]; decide)).1 (by rw [listed, word]; decide)
  have stop : (utf8Bytes (s.toList.take (2 + "é".length))).length = 7 := by
    rw [listed]
    decide
  rw [Cursor.position_point, stop] at third
  exact ⟨encoded, inBytes 3 (by decide), inChars 1 (by decide), second.1, second.2, third.1,
    third.2⟩

end Backtrack
