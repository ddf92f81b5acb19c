import ServiceBroker.Decimal.Power

/-!
Decimal digits: the number that a sequence of them stands for, and the writing of a number with a
fixed count of places.
-/

namespace ServiceBroker.Text

/-- The value of a sequence of digits. -/
def natOfDigits (ds : List Char) : Nat :=
  ds.foldl (fun n c => n * 10 + (c.toNat - '0'.toNat)) 0

/-- The last `places` digits of a number, with zeros in front. -/
def digits : (places : Nat) → Nat → List Char
  | 0, _ => []
  | places + 1, n => digits places (n / 10) ++ [Nat.digitChar (n % 10)]

/-- There is one digit for each place. -/
@[simp]
theorem length_digits (places n : Nat) : (digits places n).length = places := by
  induction places generalizing n with
  | zero => rfl
  | succ places ih => simp [digits, ih]

/-- A digit has its own value. -/
theorem toNat_digitChar {n : Nat} (h : n < 10) : (Nat.digitChar n).toNat - '0'.toNat = n := by
  have : ∀ m : Fin 10, (Nat.digitChar m).toNat - '0'.toNat = m := by decide
  exact this ⟨n, h⟩

/-- A number below ten has a digit. -/
theorem isDigit_digitChar {n : Nat} (h : n < 10) : (Nat.digitChar n).isDigit = true := by
  have : ∀ m : Fin 10, (Nat.digitChar m).isDigit = true := by decide
  exact this ⟨n, h⟩

/-- A digit behind others adds to ten times their value. -/
theorem natOfDigits_concat (ds : List Char) (c : Char) :
    natOfDigits (ds ++ [c]) = natOfDigits ds * 10 + (c.toNat - '0'.toNat) := by
  simp [natOfDigits]

/-- The digits of a number stand for what is left of it when the places before are cut off. -/
theorem natOfDigits_digits (places n : Nat) :
    natOfDigits (digits places n) = n % Decimal.powerOfTen places := by
  induction places generalizing n with
  | zero => simp [digits, natOfDigits, Decimal.powerOfTen, Nat.mod_one]
  | succ places ih =>
    rw [digits, natOfDigits_concat, ih, toNat_digitChar (Nat.mod_lt _ (by decide)),
      Decimal.powerOfTen_succ, Nat.mul_comm (Decimal.powerOfTen places) 10, Nat.mod_mul]
    omega

/-- Only digits are written. -/
theorem isDigit_of_mem_digits {places n : Nat} {c : Char} (h : c ∈ digits places n) :
    c.isDigit = true := by
  induction places generalizing n with
  | zero => simp [digits] at h
  | succ places ih =>
    rcases List.mem_append.1 h with h | h
    · exact ih h
    · rw [List.mem_singleton.1 h]
      exact isDigit_digitChar (Nat.mod_lt _ (by decide))

end ServiceBroker.Text
