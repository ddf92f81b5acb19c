import ServiceBroker.Text.Bytes

/-!
Base 64 with the standard alphabet: three octets are written as four digits, and a last group of
one or two octets is padded with `=`. Reading accepts written forms only: no blanks, no missing
padding, no stray bits behind the last octet.
-/

namespace ServiceBroker.Text.Base64

def digit (n : Nat) : Char :=
  if n < 26 then Char.ofNat ('A'.toNat + n)
  else if n < 52 then Char.ofNat ('a'.toNat + (n - 26))
  else if n < 62 then Char.ofNat ('0'.toNat + (n - 52))
  else if n = 62 then '+'
  else '/'

/-- The number that a digit stands for. -/
def value? (c : Char) : Option Nat :=
  if 'A' ≤ c ∧ c ≤ 'Z' then some (c.toNat - 'A'.toNat)
  else if 'a' ≤ c ∧ c ≤ 'z' then some (c.toNat - 'a'.toNat + 26)
  else if '0' ≤ c ∧ c ≤ '9' then some (c.toNat - '0'.toNat + 52)
  else if c = '+' then some 62
  else if c = '/' then some 63
  else none

/-- Every digit stands for the number it was written for. -/
theorem value?_digit (n : Nat) (h : n < 64) : value? (digit n) = some n := by
  have : ∀ k : Fin 64, value? (digit k) = some k.val := by decide
  exact this ⟨n, h⟩

/-- Writes octets three at a time. -/
def encode : Bytes → List Char
  | [] => []
  | [a] =>
    [digit (a.toNat / 4), digit (a.toNat % 4 * 16), '=', '=']
  | [a, b] =>
    [digit (a.toNat / 4), digit (a.toNat % 4 * 16 + b.toNat / 16), digit (b.toNat % 16 * 4), '=']
  | a :: b :: c :: rest =>
    digit (a.toNat / 4) :: digit (a.toNat % 4 * 16 + b.toNat / 16) ::
      digit (b.toNat % 16 * 4 + c.toNat / 64) :: digit (c.toNat % 64) :: encode rest

/-- The octets of a padded last group of digits. -/
def decodeLast (w x y z : Char) : Option Bytes := do
  guard (z = '=')
  let p ← value? w
  let q ← value? x
  if y = '=' then
    guard (q % 16 = 0)
    return [UInt8.ofNat (p * 4 + q / 16)]
  else
    let r ← value? y
    guard (r % 4 = 0)
    return [UInt8.ofNat (p * 4 + q / 16), UInt8.ofNat (q % 16 * 16 + r / 4)]

/-- The octets of a group of four digits without padding. -/
def decodeFull (w x y z : Char) : Option Bytes := do
  let p ← value? w
  let q ← value? x
  let r ← value? y
  let s ← value? z
  return [UInt8.ofNat (p * 4 + q / 16), UInt8.ofNat (q % 16 * 16 + r / 4),
    UInt8.ofNat (r % 4 * 64 + s)]

/-- Reads digits four at a time; only the last group may be padded. -/
def decode : List Char → Option Bytes
  | [] => some []
  | [w, x, y, z] => (decodeFull w x y z).or (decodeLast w x y z)
  | w :: x :: y :: z :: rest => return (← decodeFull w x y z) ++ (← decode rest)
  | _ => none

end ServiceBroker.Text.Base64
