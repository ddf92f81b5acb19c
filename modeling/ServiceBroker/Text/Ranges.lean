/-!
Sets of characters given by ranges of code points, as the tables of a character property are.
-/

namespace ServiceBroker.Text

/-- Ranges of code points, both ends included. -/
abbrev Ranges := Array (Nat × Nat)

def Ranges.contains (ranges : Ranges) (c : Char) : Bool :=
  ranges.any fun (low, high) => low ≤ c.toNat && c.toNat ≤ high

end ServiceBroker.Text
