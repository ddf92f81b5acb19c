import ServiceBroker.Json.Basic

/-!
Documents as they are written, before anybody has said what they should hold.

A scalar of a document may read in several ways: the same `123` is a text where a text is wanted
and a number where a number is. So a scalar is the collection of its readings. Mappings keep every
member, repeated names included: whether a repetition is an error depends on who reads it.
-/

namespace ServiceBroker

/-- The readings of a scalar. -/
structure Scalar where
  /-- As a text. -/
  text : Option String := none
  /-- As one of a fixed set of names. -/
  name : Option String := none
  /-- It stands for a value that is not there. -/
  absent : Bool := false
  /-- It stands for a sequence or mapping with nothing in it. -/
  empty : Bool := false
  /-- As a truth value. -/
  flag : Option Bool := none
  /-- As a natural number of 64 bits. -/
  count : Option Nat := none
  /-- As a free-form value. -/
  value : Option Json := none

/-- A document as it is written. -/
inductive Document where
  | scalar (reading : Scalar)
  | sequence (items : List Document)
  /-- A key without a text is none that a field can have. -/
  | mapping (members : List (Option String × Document))
  /-- Something that is well written but cannot be followed, such as a reference into itself. -/
  | unreadable

instance : Inhabited Document := ⟨.unreadable⟩

namespace Scalar

/-- The scalar with no value. -/
def ofNull : Scalar :=
  { absent := true, value := some .null }

/-- A truth value. -/
def ofBool (b : Bool) : Scalar :=
  { flag := some b, value := some (.bool b) }

/-- A text. -/
def ofText (s : String) : Scalar :=
  { text := some s, name := some s, value := some (.string s) }

/-- A number, or nothing readable if the number is out of range. -/
def ofNumber : Option Json.Number → Scalar
  | some (.integer n) =>
    { count := if 0 ≤ n then some n.toNat else none, value := some (.number (.integer n)) }
  | some x => { value := some (.number x) }
  | none => {}

end Scalar

mutual

def Json.toDocument : Json → Document
  | .null => .scalar .ofNull
  | .bool b => .scalar (.ofBool b)
  | .number n => .scalar (.ofNumber (some n))
  | .string s => .scalar (.ofText s)
  | .array items => .sequence (itemsToDocuments items)
  | .object members => .mapping (membersToDocuments members)

def Json.itemsToDocuments : List Json → List Document
  | [] => []
  | item :: items => item.toDocument :: Json.itemsToDocuments items

def Json.membersToDocuments : List (String × Json) → List (Option String × Document)
  | [] => []
  | (key, value) :: members => (some key, value.toDocument) :: Json.membersToDocuments members

end

end ServiceBroker
