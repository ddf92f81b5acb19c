import ServiceBroker.Text.Digits

/-! The decimal digits of a number: they stand for the number, and there is no zero in front. -/

namespace ServiceBroker

namespace Text

theorem natOfDigits_toDigits (n : Nat) : natOfDigits (Nat.toDigits 10 n) = n := by
  have hFold : natOfDigits (Nat.toDigits 10 n) = Nat.ofDigitChars 10 (Nat.toDigits 10 n) 0 := by
    rw [natOfDigits, Nat.ofDigitChars_eq_foldl]
    congr 1
    funext sofar c
    rw [Nat.mul_comm]
  rw [hFold, Nat.ofDigitChars_ten_toDigits]

theorem isDigit_of_mem_toDigits {n : Nat} {c : Char} (h : c ∈ Nat.toDigits 10 n) :
    c.isDigit = true :=
  Nat.isDigit_of_mem_toDigits (by decide) (by decide) h

/-- A positive number is written without a zero in front. -/
theorem head?_toDigits_ne_zero {n : Nat} (positive : 0 < n) :
    (Nat.toDigits 10 n).head? ≠ some '0' := by
  induction n using Nat.strongRecOn with
  | ind n ih =>
      by_cases hSmall : n < 10
      · rw [Nat.toDigits_of_lt_base hSmall]
        have hDigits : ∀ m : Fin 10, 0 < m.val → ([Nat.digitChar m].head? ≠ some '0') := by decide
        exact hDigits ⟨n, hSmall⟩ positive
      · rw [Nat.toDigits_of_base_le (by decide) (by omega), List.head?_append]
        intro hHead
        rcases Option.or_eq_some_iff.mp hHead with hFirst | ⟨hNone, -⟩
        · exact ih (n / 10) (by omega) (by omega) hFirst
        · exact Nat.toDigits_ne_nil (List.head?_eq_none_iff.mp hNone)

/-- What is read while a condition holds, if it holds to the end and no further. -/
theorem takeWhile_append_stop {α : Type} {p : α → Bool} {first rest : List α}
    (hFirst : ∀ a ∈ first, p a = true) (hRest : ∀ a, rest.head? = some a → p a = false) :
    (first ++ rest).takeWhile p = first ∧ (first ++ rest).dropWhile p = rest := by
  rw [List.takeWhile_append_of_pos hFirst, List.dropWhile_append_of_pos hFirst]
  cases rest with
  | nil => simp
  | cons a rest => simp [hRest a rfl]

theorem toDigits_ne_leading_zero (n : Nat) (c : Char) (cs : List Char) :
    Nat.toDigits 10 n ≠ '0' :: c :: cs := by
  intro h
  by_cases hZero : n = 0
  · rw [hZero, Nat.toDigits_zero] at h
    cases h
  · apply head?_toDigits_ne_zero (Nat.pos_of_ne_zero hZero)
    rw [h]
    rfl

end Text

end ServiceBroker
