import ServiceBroker.Version.Basic

/-!
The order of versions: by the three numbers, then by the pre-release identifiers, then by the build
identifiers. It is total, and only equal versions compare as equal.

A version without pre-release identifiers is above those that have some; without build identifiers
it is below. Of two lists of identifiers the first difference decides, and a longer list is above
its beginning. A numeric identifier is below every other, two numeric ones compare by value, and by
length if the value is the same; others compare character by character.
-/

namespace ServiceBroker.Version

/-- Character by character. -/
def compareChars : List Char → List Char → Ordering
  | [], [] => .eq
  | [], _ :: _ => .lt
  | _ :: _, [] => .gt
  | c :: cs, d :: ds => (compare c.toNat d.toNat).then (compareChars cs ds)

/-- The digits of a number without zeros in front. -/
def significant (cs : List Char) : List Char :=
  cs.dropWhile (· == '0')

namespace Identifier

/-- Numeric identifiers come first, by value and then by length; the others by their characters. -/
def compare (i j : Identifier) : Ordering :=
  match i.isNumeric, j.isNumeric with
  | true, false => .lt
  | false, true => .gt
  | false, false => compareChars i.chars j.chars
  | true, true =>
    (Ord.compare (significant i.chars).length (significant j.chars).length).then <|
      (compareChars (significant i.chars) (significant j.chars)).then <|
        Ord.compare i.chars.length j.chars.length

end Identifier

/-- The first difference decides; a longer list is above its beginning. -/
def compareIdentifiers : List Identifier → List Identifier → Ordering
  | [], [] => .eq
  | [], _ :: _ => .lt
  | _ :: _, [] => .gt
  | i :: is, j :: js => (i.compare j).then (compareIdentifiers is js)

/-- A release is above its pre-releases. -/
def comparePre : List Identifier → List Identifier → Ordering
  | [], [] => .eq
  | [], _ :: _ => .gt
  | _ :: _, [] => .lt
  | is, js => compareIdentifiers is js

def compare (v w : Version) : Ordering :=
  (Ord.compare v.major w.major).then <| (Ord.compare v.minor w.minor).then <|
    (Ord.compare v.patch w.patch).then <| (comparePre v.pre w.pre).then <|
      compareIdentifiers v.build w.build

instance : Ord Version := ⟨Version.compare⟩

/-- One version is below another. -/
instance : LT Version := ⟨fun v w => v.compare w = .lt⟩

/-- One version is not above another. -/
instance : LE Version := ⟨fun v w => v.compare w ≠ .gt⟩

instance (v w : Version) : Decidable (v < w) :=
  inferInstanceAs (Decidable (v.compare w = .lt))

instance (v w : Version) : Decidable (v ≤ w) :=
  inferInstanceAs (Decidable (v.compare w ≠ .gt))

end ServiceBroker.Version
