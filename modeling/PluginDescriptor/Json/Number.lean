import PluginDescriptor.Decimal

namespace PluginDescriptor.Json

/-- A number as a reader of JSON keeps it. -/
inductive Number where
  | integer (n : Int)
  | double (x : Float)

/-- The parts of a number's text: its digits before and after the point, and its exponent. -/
structure Numeral where
  negative : Bool
  whole : List Char
  fraction : Option (List Char)
  exponent : Option Int

namespace Numeral

def wordMax : Nat := UInt64.size - 1

def digit (c : Char) : Nat := c.toNat - '0'.toNat

/-- Appends digits to a number until it would leave 64 bits; the digits left over are returned. -/
def gather : Nat → List Char → Nat × List Char
  | n, [] => (n, [])
  | n, c :: r => if n * 10 + digit c ≤ wordMax then gather (n * 10 + digit c) r else (n, c :: r)

/-- `significand * 10 ^ exponent` as a double, by one multiplication or division with a power of
ten where that power is itself a double; `none` when it is too large. -/
def scale (significand : Nat) (exponent : Int) : Option Float :=
  let start := significand.toUInt64.toFloat
  if exponent > 308 then
    if significand = 0 then some 0 else none
  else if exponent ≥ 0 then
    let x := start * Float.ofScientific 1 false exponent.toNat
    if x.isInf then none else some x
  else if exponent ≥ -308 then
    some (start / Float.ofScientific 1 false (-exponent).toNat)
  else
    let once := start / Float.ofScientific 1 false 308
    if exponent ≥ -616 then some (once / Float.ofScientific 1 false (-exponent - 308).toNat)
    else some 0

/-- The double that the parts name; `none` when it is too large. -/
def toDouble? (p : Numeral) : Option Float :=
  let (n, dropped) := gather 0 p.whole
  let fraction := p.fraction.getD []
  let (m, rest) := gather n fraction
  let places : Int := dropped.length - (fraction.length - rest.length : Nat)
  let x := scale m (places + p.exponent.getD 0)
  if p.negative then x.map (- ·) else x

/-- The number that the parts name; `none` when it is too large for a double. A negative zero is
a double, since no integer keeps its sign. -/
def value? (p : Numeral) : Option Number :=
  let (n, dropped) := gather 0 p.whole
  if p.fraction.isNone && p.exponent.isNone && dropped.isEmpty &&
      (!p.negative || (0 < n && n ≤ UInt64.size / 2)) then
    some (.integer (if p.negative then -n else n))
  else p.toDouble?.map .double

end Numeral

/-- The text of a double: positional while the point stands within or near the digits, else with
an exponent, which always has a sign. -/
def doubleText (x : Float) : String :=
  let bits := x.toBits.toNat
  let sign := if bits >>> 63 = 1 then "-" else ""
  let biased : Nat := (bits >>> 52) % 2048
  let stored : Nat := bits % Decimal.leadingBit
  if biased = 0 && stored = 0 then sign ++ "0.0"
  else
    let d :=
      if biased = 0 then Decimal.shortest stored (-1074)
      else Decimal.shortest (stored + Decimal.leadingBit) (biased - 1075)
    let text := Nat.toDigits 10 d.digits
    let point : Int := text.length + d.exponent
    let zeros (n : Int) : List Char := List.replicate n.toNat '0'
    let body :=
      if 0 ≤ d.exponent && point ≤ 16 then text ++ zeros d.exponent ++ ['.', '0']
      else if 0 < point && point ≤ 16 then text.take point.toNat ++ '.' :: text.drop point.toNat
      else if -5 < point && point ≤ 0 then '0' :: '.' :: zeros (-point) ++ text
      else
        let lead := match text with
          | [] => []
          | [c] => [c]
          | c :: r => c :: '.' :: r
        lead ++ 'e' :: (if point > 1 then ['+'] else []) ++ (toString (point - 1)).toList
    sign ++ String.ofList body

def Number.text : Number → String
  | .integer n => toString n
  | .double x => doubleText x

end PluginDescriptor.Json
