import ServiceBroker.Decimal.Power

/-!
The shortest decimal that reads back as a given binary floating-point number.

A finite positive number is `mantissa · 2 ^ exponent`. The reals that round to it form an interval;
among the decimals in that interval the ones on the coarsest grid of powers of ten have the fewest
digits, and of those the nearest to the number is taken.
-/

namespace ServiceBroker.Decimal

/-- A positive number `mantissa · 2 ^ exponent`, as a double-precision format holds it. -/
structure Binary where
  mantissa : Nat
  exponent : Int
  /-- The next smaller number of the format is only half as far away as the next larger one. -/
  closeBelow : Bool

/-- A number `digits · 10 ^ exponent`. -/
structure Scientific where
  digits : Nat
  exponent : Int
deriving DecidableEq

/-- The magnitude of a finite double-precision number, from its bits. -/
def Binary.ofBits (bits : UInt64) : Binary :=
  let fraction : Nat := bits.toNat % powerOfTwo 52
  let field : Nat := bits.toNat / powerOfTwo 52 % powerOfTwo 11
  if field = 0 then
    { mantissa := fraction, exponent := -1074, closeBelow := false }
  else
    { mantissa := fraction + powerOfTwo 52, exponent := Int.ofNat field - 1075,
      closeBelow := fraction = 0 && 1 < field }

/-- The points of the grid `10 ^ grid` nearest to the number on either side that round to it, the
nearer one first, and the even one first if both are as near. Lengths are compared in units of a
quarter of the mantissa's last place. -/
def Binary.hits (x : Binary) (grid : Int) : List Nat :=
  let quarter := x.exponent - 2
  let scale := powerOfTwo quarter.toNat * powerOfTen (-grid).toNat
  let step := powerOfTen grid.toNat * powerOfTwo (-quarter).toNat
  let value := 4 * x.mantissa * scale
  let low := (if x.closeBelow then 4 * x.mantissa - 1 else 4 * x.mantissa - 2) * scale
  let high := (4 * x.mantissa + 2) * scale
  let inside (point : Nat) : Bool :=
    if x.mantissa % 2 = 0 then low ≤ point && point ≤ high else low < point && point < high
  let below := value / step
  let above := below + 1
  let down := value - below * step
  let up := above * step - value
  let nearerFirst :=
    if down < up || (down = up && below % 2 = 0) then [below, above] else [above, below]
  nearerFirst.filter fun d => 0 < d && inside (d * step)

/-- Searches grids from coarse to fine, `count` of them at most. -/
def Binary.search (x : Binary) : Nat → Int → Scientific
  | 0, grid => { digits := x.mantissa, exponent := grid }
  | count + 1, grid =>
    match x.hits grid with
    | d :: _ => { digits := d, exponent := grid }
    | [] => x.search count (grid - 1)

/-- The shortest decimal that rounds to the number. Seventeen digits always suffice; the search
starts above the number's leading digit. -/
def Binary.shortest (x : Binary) : Scientific :=
  let twos : Int := Int.ofNat x.mantissa.log2 + 1 + x.exponent
  x.search 24 (twos * 30103 / 100000 + 2)

end ServiceBroker.Decimal
