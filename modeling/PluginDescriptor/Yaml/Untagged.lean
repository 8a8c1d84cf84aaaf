import PluginDescriptor.Decimal

namespace PluginDescriptor.Yaml

/-- The words for null and for truth values, and the empty text. -/
def reservedWords : List String :=
  ["", "null", "Null", "NULL", "~", "true", "True", "TRUE", "false", "False", "FALSE"]

/-- The words for infinities, each with an optional sign, and for what is not a number. -/
def nonFiniteWords : List String :=
  [".inf", ".Inf", ".INF", "+.inf", "+.Inf", "+.INF", "-.inf", "-.Inf", "-.INF",
    ".nan", ".NaN", ".NAN"]

/-- The value of a digit in a base up to sixteen. -/
def digitValue? (base : Nat) (c : Char) : Option Nat :=
  let n :=
    if c.isDigit then c.toNat - '0'.toNat
    else if 'a' ≤ c ∧ c ≤ 'f' then c.toNat - 'a'.toNat + 10
    else if 'A' ≤ c ∧ c ≤ 'F' then c.toNat - 'A'.toNat + 10
    else 16
  if n < base then some n else none

/-- The number that digits of a base write, continuing from `acc`. -/
def numberFrom? (base : Nat) : (acc : Nat) → List Char → Option Nat
  | acc, [] => some acc
  | acc, c :: r =>
    match digitValue? base c with
    | none => none
    | some d => numberFrom? base (acc * base + d) r

/-- Whether the text is a number in this base, at least one digit long and at most `greatest`. -/
def isNumberUpTo (greatest base : Nat) (cs : List Char) : Bool :=
  match cs, numberFrom? base 0 cs with
  | _ :: _, some n => n ≤ greatest
  | _, _ => false

/-- A zero and further digits, after an optional sign. -/
def hasSuperfluousZero (cs : List Char) : Bool :=
  let unsigned := match cs with
    | '-' :: r => r
    | '+' :: r => r
    | r => r
  match unsigned with
  | '0' :: d :: r => (d :: r).all Char.isDigit
  | _ => false

/-- The digits of an integer after its sign, in any of the four bases. -/
def isUnsignedInteger (greatest : Nat) (cs : List Char) : Bool :=
  match cs with
  | '0' :: 'x' :: r => isNumberUpTo greatest 16 r
  | '0' :: 'o' :: r => isNumberUpTo greatest 8 r
  | '0' :: 'b' :: r => isNumberUpTo greatest 2 r
  | _ => !hasSuperfluousZero cs && isNumberUpTo greatest 10 cs

def isInteger (cs : List Char) : Bool :=
  match cs with
  | '-' :: r => isUnsignedInteger (1 <<< 127) r
  | '+' :: r => isUnsignedInteger (1 <<< 128 - 1) r
  | r => isUnsignedInteger (1 <<< 128 - 1) r

/-- An optional sign in front of digits: whether it is a minus, and what follows it. -/
def splitSign (cs : List Char) : Bool × List Char :=
  match cs with
  | '-' :: r => (true, r)
  | '+' :: r => (false, r)
  | r => (false, r)

/-- The exponent of a number, which starts with its mark and has at least one digit. -/
def exponent? (cs : List Char) : Option Int :=
  match cs with
  | [] => some 0
  | c :: r =>
    if c = 'e' ∨ c = 'E' then
      let (negative, ds) := splitSign r
      if ds.isEmpty || !ds.all Char.isDigit then none
      else if negative then some (-(Decimal.ofDigits ds : Int))
      else some (Decimal.ofDigits ds)
    else none

/-- A decimal number without sign that is finite as a double. There is a digit before or after the
point, if there is a point. -/
def isUnsignedDecimal (cs : List Char) : Bool :=
  let whole := cs.takeWhile Char.isDigit
  let (fraction, rest) :=
    match cs.dropWhile Char.isDigit with
    | '.' :: r => (r.takeWhile Char.isDigit, r.dropWhile Char.isDigit)
    | r => ([], r)
  match exponent? rest with
  | none => false
  | some e =>
    !(whole ++ fraction).isEmpty && Decimal.isFinite (whole ++ fraction) (e - fraction.length)

def isDecimal (cs : List Char) : Bool := isUnsignedDecimal (splitSign cs).2

/-- Whether a plain scalar with this text would not be read as the text. -/
def isUntaggedValue (cs : List Char) : Bool :=
  reservedWords.any (·.toList == cs) || isInteger cs || hasSuperfluousZero cs ||
    nonFiniteWords.any (·.toList == cs) || isDecimal cs

end PluginDescriptor.Yaml
