/-!
Byte strings and their relation to text: every text has one encoding in UTF-8, and a byte string
is text exactly when it is such an encoding. A byte string that is no text can still be read
character by character, with the octets between its characters that belong to none.
-/

namespace ServiceBroker

/-- A sequence of octets, such as the content of a file. -/
abbrev Bytes := List UInt8

namespace Bytes

/-- The UTF-8 encoding of a text. -/
def ofText (text : String) : Bytes :=
  text.toUTF8.data.toList

/-- The text whose encoding the octets are, if they are valid UTF-8. -/
def text? (bytes : Bytes) : Option String :=
  String.fromUTF8? ⟨bytes.toArray⟩

/-- Decoding undoes encoding. -/
@[simp]
theorem text?_ofText (text : String) : text? (ofText text) = some text := by
  have h : (⟨(ofText text).toArray⟩ : ByteArray) = text.toByteArray := by
    simp [ofText, String.toUTF8_eq_toByteArray]
  simp only [text?, h, String.fromUTF8?, dif_pos text.isValidUTF8]
  rfl

/-- The character whose encoding stands at the front of the octets, if one does. -/
def first? (bytes : Bytes) : Option Char :=
  (bytes.take 4).toByteArray.utf8DecodeChar? 0

/-- The characters behind some more octets of the character before; an octet that belongs to no
character is `none`. -/
def charactersBehind : Nat → Bytes → List (Option Char)
  | _, [] => []
  | passed + 1, _ :: octets => charactersBehind passed octets
  | 0, octet :: octets =>
    match first? (octet :: octets) with
    | some c => some c :: charactersBehind (c.utf8Size - 1) octets
    | none => none :: charactersBehind 0 octets

/-- The octets as characters; an octet that belongs to no character is `none`. -/
def characters (bytes : Bytes) : List (Option Char) :=
  charactersBehind 0 bytes

end Bytes

end ServiceBroker
