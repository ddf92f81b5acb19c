import Mathlib.Data.String.Basic
import ServiceBroker.Text.Bytes

/-! A text is encoded character by character, so its octets are read as its characters, and the order
of texts is the order of their encodings. -/

namespace ServiceBroker.Bytes

/-- A text is encoded character by character. -/
theorem ofText_eq_flatMap (text : String) :
    ofText text = text.toList.flatMap String.utf8EncodeChar := by
  rw [ofText, String.toUTF8_eq_toByteArray, ← String.utf8Encode_toList, List.utf8Encode,
    List.toList_data_toByteArray]

/-- No encoding is longer than the octets that are looked at, so only they decide. -/
theorem first?_encoded (c : Char) (octets : Bytes) :
    first? (String.utf8EncodeChar c ++ octets) = some c := by
  have hShort : (String.utf8EncodeChar c).length ≤ 4 :=
    String.length_utf8EncodeChar c ▸ c.utf8Size_le_four
  rw [first?, List.take_append, List.take_of_length_le hShort, List.toByteArray_append]
  exact ByteArray.utf8DecodeChar?_utf8EncodeChar_append

theorem charactersBehind_append (passed octets : Bytes) :
    charactersBehind passed.length (passed ++ octets) = charactersBehind 0 octets := by
  induction passed with
  | nil => rfl
  | cons octet passed ih => exact ih

theorem characters_encoded (c : Char) (octets : Bytes) :
    characters (String.utf8EncodeChar c ++ octets) = some c :: characters octets := by
  have hFirst := first?_encoded c octets
  have hLength := String.length_utf8EncodeChar c
  cases hOctets : String.utf8EncodeChar c with
  | nil => exact absurd hOctets String.utf8EncodeChar_ne_nil
  | cons octet more =>
      rw [hOctets] at hFirst hLength
      have hMore : c.utf8Size - 1 = more.length := by
        rw [← hLength, List.length_cons, Nat.add_sub_cancel]
      rw [List.cons_append] at hFirst ⊢
      simp only [characters, charactersBehind, hFirst, hMore, charactersBehind_append]

/-- An octet with which no encoding starts belongs to no character. -/
theorem characters_stray_cons {octet : UInt8} (octets : Bytes) (h : ¬ octet.IsUTF8FirstByte) :
    characters (octet :: octets) = none :: characters octets := by
  have hFirst : first? (octet :: octets) = none := by
    by_contra hSome
    have hStarts := ByteArray.isUTF8FirstByte_of_isSome_utf8DecodeChar?
      (Option.isSome_iff_ne_none.mpr hSome)
    rw [List.getElem_toByteArray] at hStarts
    exact h hStarts
  simp only [characters, charactersBehind, hFirst]

/-- All octets of a text belong to its characters. -/
theorem characters_ofText_append (text : String) (octets : Bytes) :
    characters (ofText text ++ octets) = text.toList.map some ++ characters octets := by
  rw [ofText_eq_flatMap]
  induction text.toList with
  | nil => rfl
  | cons c cs ih =>
      rw [List.flatMap_cons, List.append_assoc, characters_encoded, ih, List.map_cons,
        List.cons_append]

theorem characters_ofText (text : String) : characters (ofText text) = text.toList.map some := by
  simpa [characters, charactersBehind] using characters_ofText_append text []

/-- The octets of a smaller character are smaller, whatever follows. -/
theorem utf8EncodeChar_append_lt {c d : Char} (h : c < d) (first second : Bytes) :
    String.utf8EncodeChar c ++ first < String.utf8EncodeChar d ++ second := by
  have hLess : c.val.toNat < d.val.toNat := h
  have hBound : d.val.toNat < 1114112 := by
    rcases d.valid with hLow | ⟨-, hHigh⟩
    · exact Nat.lt_trans hLow (by decide)
    · exact hHigh
  unfold String.utf8EncodeChar
  generalize c.val.toNat = m at *
  generalize d.val.toNat = n at *
  have hTop (k : Nat) : k / 262144 = k / 64 / 64 / 64 := by omega
  have hMiddle (k : Nat) : k / 4096 = k / 64 / 64 := by omega
  dsimp only
  -- Between encodings of different lengths the first octets decide.
  split_ifs
  all_goals
    simp only [List.cons_append, List.nil_append, List.cons_lt_cons_iff, UInt8.lt_iff_toNat_lt,
      ← UInt8.toNat_inj, UInt8.toNat_ofNat', hTop, hMiddle]
    omega

theorem flatMap_utf8EncodeChar_lt {first second : List Char} (h : first < second) :
    first.flatMap String.utf8EncodeChar < second.flatMap String.utf8EncodeChar := by
  induction h with
  | @nil c rest =>
      obtain ⟨octet, octets, hOctets⟩ :=
        List.exists_cons_of_ne_nil (String.utf8EncodeChar_ne_nil (c := c))
      rw [List.flatMap_nil, List.flatMap_cons, hOctets]
      exact List.nil_lt_cons ..
  | @cons c first second _ ih =>
      rw [List.flatMap_cons, List.flatMap_cons]
      exact List.append_left_lt ih
  | rel h => exact utf8EncodeChar_append_lt h _ _

/-- One text comes before another one if, and only if, its encoding does. -/
theorem ofText_lt_iff {first second : String} : ofText first < ofText second ↔ first < second := by
  have hLess {first second : String} (h : first < second) : ofText first < ofText second := by
    rw [ofText_eq_flatMap, ofText_eq_flatMap]
    exact flatMap_utf8EncodeChar_lt (String.lt_iff_toList_lt.mp h)
  refine ⟨fun h => ?_, hLess⟩
  rcases lt_trichotomy first second with hBefore | rfl | hAfter
  · exact hBefore
  · exact absurd h (List.lt_irrefl _)
  · exact absurd (hLess hAfter) (List.lt_asymm h)

end ServiceBroker.Bytes
