/-!
Powers of two and of ten, as numbers are scaled by them.
-/

namespace ServiceBroker.Decimal

def powerOfTwo (n : Nat) : Nat :=
  Nat.pow 2 n

def powerOfTen (n : Nat) : Nat :=
  Nat.pow 10 n

/-- The next power is ten times as large. -/
theorem powerOfTen_succ (n : Nat) : powerOfTen (n + 1) = powerOfTen n * 10 :=
  rfl

end ServiceBroker.Decimal
