namespace PluginDescriptor.Decimal

/-- The least number that rounds to infinity: half a last place above the greatest double. -/
def overflow : Nat := 1 <<< 1024 - 1 <<< 970

def ofDigits (ds : List Char) : Nat := ds.foldl (fun n c => n * 10 + (c.toNat - '0'.toNat)) 0

/-- Whether `ds * 10 ^ exponent` rounds to a finite double. Powers of ten are only computed where
the number of digits does not decide already. -/
def isFinite (ds : List Char) (exponent : Int) : Bool :=
  let n := ofDigits ds
  if n = 0 then true
  else if exponent > 400 then false
  else if exponent ≥ 0 then n * Nat.pow 10 exponent.toNat < overflow
  else if ds.length + exponent ≤ 308 then true
  else n < overflow * Nat.pow 10 (-exponent).toNat

/-- A positive decimal number: `digits * 10 ^ exponent`. -/
structure Scaled where
  digits : Nat
  exponent : Int
  deriving DecidableEq, Repr

/-- A positive binary number with the reals that round to it, in quarters of its last place. -/
structure Interval where
  /-- Four times the mantissa. -/
  value : Nat
  low : Nat
  high : Nat
  /-- The scale of the three: they count multiples of `2 ^ exponent`. -/
  exponent : Int
  /-- Whether the two ends round to the number as well. -/
  closed : Bool

/-- The weight of a double's leading bit; smaller mantissas belong to the least exponent only. -/
def leadingBit : Nat := 1 <<< 52

/-- The reals that round to a double of this mantissa and exponent. Below a power of two the
neighbour is only half as far away. -/
def Interval.ofBinary (mantissa : Nat) (exponent : Int) : Interval :=
  let atPower := mantissa == leadingBit && exponent > -1074
  { value := 4 * mantissa
    low := 4 * mantissa - (if atPower then 1 else 2)
    high := 4 * mantissa + 2
    exponent := exponent - 2
    closed := mantissa % 2 == 0 }

namespace Interval

/-- The multiple of `10 ^ place` that lies in the interval and is nearest to its number. -/
def onGrid? (i : Interval) (place : Int) : Option Nat :=
  let scale := Nat.pow 2 i.exponent.toNat * Nat.pow 10 (-place).toNat
  let unit := Nat.pow 2 (-i.exponent).toNat * Nat.pow 10 place.toNat
  let below := i.value * scale / unit
  let inside (d : Nat) : Bool :=
    if i.closed then i.low * scale ≤ d * unit && d * unit ≤ i.high * scale
    else i.low * scale < d * unit && d * unit < i.high * scale
  let up := (below + 1) * unit - i.value * scale
  let down := i.value * scale - below * unit
  match inside below, inside (below + 1) with
  | true, true =>
    if down < up || (down == up && below % 2 == 0) then some below else some (below + 1)
  | true, false => some below
  | false, true => some (below + 1)
  | false, false => none

/-- Tries one grid after the other, each ten times as fine as the one before it. -/
def search (i : Interval) (place : Int) : Nat → Scaled
  | 0 => ⟨i.value, place⟩
  | tries + 1 =>
    match i.onGrid? place with
    | some digits => ⟨digits, place⟩
    | none => i.search (place - 1) tries

end Interval

/-- A decimal place above the leading digit of `mantissa * 2 ^ exponent`. -/
def placeAbove (mantissa : Nat) (exponent : Int) : Int :=
  (Nat.log2 mantissa + exponent + 1) * 30103 / 100000 + 2

/-- The shortest decimal that rounds to the double of this mantissa and exponent. -/
def shortest (mantissa : Nat) (exponent : Int) : Scaled :=
  (Interval.ofBinary mantissa exponent).search (placeAbove mantissa exponent) 24

end PluginDescriptor.Decimal
