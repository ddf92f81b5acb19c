import ServiceBroker.Text.Base64

/-! Octets read back from their base 64 form. -/

namespace ServiceBroker.Text.Base64

theorem value?_pad : value? '=' = none := by
  decide

theorem digit_ne_pad {n : Nat} (h : n < 64) : digit n ≠ '=' := by
  intro hPad
  have hValue := value?_digit n h
  rw [hPad, value?_pad] at hValue
  cases hValue

/-- Three octets read back from their four digits. -/
theorem decodeFull_digits (a b c : UInt8) :
    decodeFull (digit (a.toNat / 4)) (digit (a.toNat % 4 * 16 + b.toNat / 16))
      (digit (b.toNat % 16 * 4 + c.toNat / 64)) (digit (c.toNat % 64)) = some [a, b, c] := by
  have ha := a.toNat_lt
  have hb := b.toNat_lt
  have hc := c.toNat_lt
  have hFirst : a.toNat / 4 * 4 + (a.toNat % 4 * 16 + b.toNat / 16) / 16 = a.toNat := by omega
  have hSecond : (a.toNat % 4 * 16 + b.toNat / 16) % 16 * 16 +
      (b.toNat % 16 * 4 + c.toNat / 64) / 4 = b.toNat := by omega
  have hThird : (b.toNat % 16 * 4 + c.toNat / 64) % 4 * 64 + c.toNat % 64 = c.toNat := by omega
  rw [decodeFull, value?_digit _ (by omega), value?_digit _ (by omega), value?_digit _ (by omega),
    value?_digit _ (by omega)]
  simp only [Option.bind_eq_bind, Option.bind_some, Option.pure_def, hFirst, hSecond, hThird,
    UInt8.ofNat_toNat]

/-- A group with padding has no four digits. -/
theorem decodeFull_pad (w x y : Char) : decodeFull w x y '=' = none := by
  rw [decodeFull, value?_pad]
  cases value? w <;> cases value? x <;> cases value? y <;> rfl

theorem guard_of {p : Prop} [Decidable p] (h : p) : (guard p : Option Unit) = some () :=
  if_pos h

theorem decodeLast_one (a : UInt8) :
    decodeLast (digit (a.toNat / 4)) (digit (a.toNat % 4 * 16)) '=' '=' = some [a] := by
  have ha := a.toNat_lt
  have hFirst : a.toNat / 4 * 4 + a.toNat % 4 * 16 / 16 = a.toNat := by omega
  have hStray : a.toNat % 4 * 16 % 16 = 0 := by omega
  rw [decodeLast, guard_of rfl, value?_digit _ (by omega), value?_digit _ (by omega)]
  simp only [↓Option.bind_eq_bind, ↓Option.bind_some, ↓reduceIte, ↓guard_of hStray]
  rw [hFirst, UInt8.ofNat_toNat]
  rfl

theorem decodeLast_two (a b : UInt8) :
    decodeLast (digit (a.toNat / 4)) (digit (a.toNat % 4 * 16 + b.toNat / 16))
      (digit (b.toNat % 16 * 4)) '=' = some [a, b] := by
  have ha := a.toNat_lt
  have hb := b.toNat_lt
  have hFirst : a.toNat / 4 * 4 + (a.toNat % 4 * 16 + b.toNat / 16) / 16 = a.toNat := by omega
  have hSecond : (a.toNat % 4 * 16 + b.toNat / 16) % 16 * 16 + b.toNat % 16 * 4 / 4 = b.toNat := by
    omega
  have hStray : b.toNat % 16 * 4 % 4 = 0 := by omega
  have hPad := digit_ne_pad (show b.toNat % 16 * 4 < 64 by omega)
  rw [decodeLast, guard_of rfl, value?_digit _ (by omega), value?_digit _ (by omega),
    value?_digit _ (by omega)]
  simp only [↓Option.bind_eq_bind, ↓Option.bind_some, ↓if_neg hPad, ↓guard_of hStray]
  rw [hFirst, hSecond, UInt8.ofNat_toNat, UInt8.ofNat_toNat]
  rfl

theorem decode_group {w x y z : Char} {cs : List Char} {group bytes : Bytes}
    (first : decodeFull w x y z = some group) (rest : decode cs = some bytes) :
    decode (w :: x :: y :: z :: cs) = some (group ++ bytes) := by
  cases cs with
  | nil =>
      cases rest
      simp [decode, first]
  | cons c cs => simp [decode, first, rest]

/-- Reading undoes writing. -/
theorem decode_encode (bytes : Bytes) : decode (encode bytes) = some bytes := by
  induction bytes using encode.induct with
  | case1 => rfl
  | case2 a => rw [encode, decode, decodeFull_pad, Option.none_or, decodeLast_one]
  | case3 a b => rw [encode, decode, decodeFull_pad, Option.none_or, decodeLast_two]
  | case4 a b c rest ih => rw [encode, decode_group (decodeFull_digits a b c) ih]; rfl

end ServiceBroker.Text.Base64
