import PluginDescriptor.Decimal
import PluginDescriptor.Toml.Text

namespace PluginDescriptor.Toml

/-- Digits with single underscores between them. -/
def isGrouped (isDigit : Char → Bool) : List Char → Bool
  | [] => false
  | [c] => isDigit c
  | c :: '_' :: r => isDigit c && isGrouped isDigit r
  | c :: d :: r => isDigit c && isGrouped isDigit (d :: r)

/-- What follows an optional sign. -/
def unsigned : List Char → List Char
  | '+' :: r => r
  | '-' :: r => r
  | r => r

/-- Decimal digits without a superfluous zero in front. -/
def isWhole (cs : List Char) : Bool :=
  match cs with
  | '0' :: _ :: _ => false
  | _ => isGrouped Char.isDigit cs

def isHexDigit (c : Char) : Bool := (hexValue? c).isSome

def isOctalDigit (c : Char) : Bool := '0' ≤ c && c ≤ '7'

def isBinaryDigit (c : Char) : Bool := c == '0' || c == '1'

def digitsOf (cs : List Char) : List Char := cs.filter (· != '_')

/-- Whether digits of a base, after others that write `n`, lead to a number up to `greatest`. -/
def staysUpTo (greatest base : Nat) : (n : Nat) → List Char → Bool
  | n, [] => n ≤ greatest
  | n, c :: r =>
    let next := n * base + (hexValue? c).getD 0
    next ≤ greatest && staysUpTo greatest base next r

/-- The greatest integer, and the greatest one below zero without its sign. -/
def greatestInteger (negative : Bool) : Nat := if negative then 1 <<< 127 else 1 <<< 128 - 1

/-- An integer of at most 128 bits; in other bases than ten it has no sign. -/
def isInteger (cs : List Char) : Bool :=
  let fits (negative : Bool) (base : Nat) (r : List Char) : Bool :=
    staysUpTo (greatestInteger negative) base 0 (digitsOf r)
  match cs with
  | '0' :: 'x' :: r => isGrouped isHexDigit r && fits false 16 r
  | '0' :: 'o' :: r => isGrouped isOctalDigit r && fits false 8 r
  | '0' :: 'b' :: r => isGrouped isBinaryDigit r && fits false 2 r
  | _ => isWhole (unsigned cs) && fits (cs.head? == some '-') 10 (unsigned cs)

def isMark (c : Char) : Bool := c == 'e' || c == 'E'

/-- A finite number with a fraction, an exponent or both. -/
def isFraction (cs : List Char) : Bool :=
  let mantissa := (unsigned cs).takeWhile fun c => !isMark c
  let exponent := (unsigned cs).dropWhile fun c => !isMark c
  let whole := mantissa.takeWhile (· != '.')
  let fraction := mantissa.dropWhile (· != '.')
  let fractionDigits := digitsOf (fraction.drop 1)
  let shift : Int :=
    match exponent.drop 1 with
    | '-' :: r => -(Decimal.ofDigits (digitsOf r) : Int)
    | r => Decimal.ofDigits (digitsOf (unsigned r))
  isWhole whole && (fraction.isEmpty || isGrouped Char.isDigit (fraction.drop 1)) &&
    (exponent.isEmpty || isGrouped Char.isDigit (unsigned (exponent.drop 1))) &&
    !(fraction.isEmpty && exponent.isEmpty) &&
    Decimal.isFinite (digitsOf whole ++ fractionDigits) (shift - fractionDigits.length)

/-- A number that is not finite, by its word. -/
def isNonFinite (cs : List Char) : Bool :=
  unsigned cs == ['i', 'n', 'f'] || unsigned cs == ['n', 'a', 'n']

def isNumberOrFlag (cs : List Char) : Bool :=
  cs == ['t', 'r', 'u', 'e'] || cs == ['f', 'a', 'l', 's', 'e'] || isInteger cs ||
    isFraction cs || isNonFinite cs

end PluginDescriptor.Toml
