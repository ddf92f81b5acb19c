import ServiceBroker.Json.Basic
import ServiceBroker.Decimal.Shortest
import ServiceBroker.Text.Digits

/-!
The text of JSON numbers. An integer is written as it is. A double-precision number is written with
the fewest digits that read back, positionally where its leading digit stands between the fifth
place behind the point and the sixteenth before it, and always with a mark that tells it from an
integer.

A number in a text is an integer if it has neither fraction nor exponent and fits 64 bits.
Otherwise its digits are gathered into 64 bits, later ones dropped, and scaled by a power of ten.
-/

namespace ServiceBroker.Json.Number

open ServiceBroker.Decimal

/-- The decimal digits of a natural number. -/
def digits (n : Nat) : List Char :=
  Nat.toDigits 10 n

/-- Takes zeros off the end of the digits and counts them into the exponent. -/
def stripZeros : Nat → Scientific → Scientific
  | 0, x => x
  | count + 1, x =>
    if x.digits ≠ 0 ∧ x.digits % 10 = 0 then
      stripZeros count { digits := x.digits / 10, exponent := x.exponent + 1 }
    else x

/-- Positional notation from the fifth place behind the point up to the sixteenth before it, else
a mantissa with one digit before the point and a signed exponent. -/
def scientificText (x : Scientific) : List Char :=
  let ds := digits x.digits
  let leading : Int := ds.length + x.exponent - 1
  if -5 ≤ leading ∧ leading < 16 then
    if 0 ≤ x.exponent then
      ds ++ List.replicate x.exponent.toNat '0' ++ ['.', '0']
    else if 0 ≤ leading then
      ds.take (leading.toNat + 1) ++ '.' :: ds.drop (leading.toNat + 1)
    else
      '0' :: '.' :: List.replicate (-leading - 1).toNat '0' ++ ds
  else
    let mantissa := match ds with
      | first :: second :: rest => first :: '.' :: second :: rest
      | short => short
    mantissa ++ 'e' :: (if 0 ≤ leading then '+' else '-') :: digits leading.natAbs

/-- The text of a finite double-precision number. -/
def doubleText (x : Float) : List Char :=
  let bits := x.toBits
  let sign := if bits.toNat < powerOfTwo 63 then [] else ['-']
  let magnitude := bits.toNat % powerOfTwo 63
  if magnitude = 0 then sign ++ ['0', '.', '0']
  else sign ++ scientificText (stripZeros 20 (Binary.ofBits bits).shortest)

def text : Number → List Char
  | .integer (.ofNat n) => digits n
  | .integer (.negSucc n) => '-' :: digits (n + 1)
  | .double x => doubleText x

/-- A number as it is written: a sign, the digits before and behind the point, and the exponent. -/
structure Written where
  negative : Bool
  whole : List Char
  fraction : Option (List Char)
  exponent : Option (Bool × List Char)

/-- The leading digits of a text and what follows them. -/
def spanDigits (cs : List Char) : List Char × List Char :=
  (cs.takeWhile Char.isDigit, cs.dropWhile Char.isDigit)

/-- The digits before the point: no leading zero, and at least one digit. -/
def readWhole? (cs : List Char) : Option (List Char × List Char) :=
  match spanDigits cs with
  | ([], _) => none
  | ('0' :: _ :: _, _) => none
  | found => some found

/-- The digits behind a point, if there is one. -/
def readFraction? : List Char → Option (Option (List Char) × List Char)
  | '.' :: rest =>
    match spanDigits rest with
    | ([], _) => none
    | (ds, rest) => some (some ds, rest)
  | rest => some (none, rest)

/-- The sign and the digits behind the mark of an exponent, if there is one. -/
def readExponent? : List Char → Option (Option (Bool × List Char))
  | [] => some none
  | mark :: rest =>
    if mark = 'e' ∨ mark = 'E' then
      let (negative, rest) := match rest with
        | '+' :: rest => (false, rest)
        | '-' :: rest => (true, rest)
        | rest => (false, rest)
      match spanDigits rest with
      | ([], _) => none
      | (ds, []) => some (some (negative, ds))
      | _ => none
    else none

/-- Reads a whole text as a number. -/
def Written.ofText? (cs : List Char) : Option Written := do
  let (negative, cs) := match cs with
    | '-' :: rest => (true, rest)
    | rest => (false, rest)
  let (whole, cs) ← readWhole? cs
  let (fraction, cs) ← readFraction? cs
  let exponent ← readExponent? cs
  return { negative, whole, fraction, exponent }

/-- Gathers digits behind `n` as long as 64 bits hold them. The result has the digits that were
left out. -/
def gather : Nat → List Char → Nat × List Char
  | n, [] => (n, [])
  | n, c :: rest =>
    let next := n * 10 + (c.toNat - '0'.toNat)
    if next < UInt64.size then gather next rest else (n, c :: rest)

/-- Scales by a power of ten in steps that the format can represent: one division or
multiplication, after as many divisions by the greatest power as a small number needs. -/
def scale : Nat → Float → Int → Option Float
  | 0, x, _ => some x
  | count + 1, x, exponent =>
    if exponent.natAbs ≤ 308 then
      if 0 ≤ exponent then
        let product := x * Float.ofScientific 1 false exponent.toNat
        if product.isInf then none else some product
      else
        some (x / Float.ofScientific 1 false exponent.natAbs)
    else if x == 0 then some x
    else if 0 ≤ exponent then none
    else scale count (x / Float.ofScientific 1 false 308) (exponent + 308)

/-- Exponents are kept within 32 bits with a sign. -/
def clampExponent (n : Int) : Int :=
  max (-2147483648) (min 2147483647 n)

/-- The double-precision number that is written, unless it is out of range. -/
def Written.double? (w : Written) : Option Float := do
  let (significand, dropped) := gather 0 w.whole
  let (significand, places) :=
    if dropped.isEmpty then
      let fraction := w.fraction.getD []
      let (all, left) := gather significand fraction
      (all, -((fraction.length - left.length : Nat) : Int))
    else
      let (all, left) := gather significand (w.fraction.getD [])
      (all, (dropped.length : Int) - (((w.fraction.getD []).length - left.length : Nat) : Int))
  let signed (x : Float) : Float := if w.negative then -x else x
  let (negative, ds) := w.exponent.getD (false, [])
  let power := Text.natOfDigits ds
  if 2147483647 < power then
    if significand ≠ 0 ∧ !negative then none else some (signed 0)
  else
    let exponent := clampExponent (if negative then places - power else places + power)
    let count := exponent.natAbs / 308 + 1
    (scale (min count 10) (OfScientific.ofScientific significand false 0) exponent).map signed

/-- The number that is written, unless it is out of range. -/
def Written.number? (w : Written) : Option Number :=
  let n := Text.natOfDigits w.whole
  if w.fraction.isNone ∧ w.exponent.isNone then
    if !w.negative && keeps n then some (.integer n)
    else if w.negative && 0 < n && keeps (-n) then some (.integer (-n))
    else w.double?.map .double
  else w.double?.map .double

end ServiceBroker.Json.Number
