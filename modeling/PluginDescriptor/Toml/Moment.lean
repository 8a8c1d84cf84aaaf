import PluginDescriptor.Decimal
import PluginDescriptor.Toml.Text

namespace PluginDescriptor.Toml

def twoDigits? : List Char → Option Nat
  | [a, b] => if a.isDigit && b.isDigit then some (Decimal.ofDigits [a, b]) else none
  | _ => none

def isLeapYear (year : Nat) : Bool := year % 4 == 0 && (year % 100 != 0 || year % 400 == 0)

def daysInMonth (year month : Nat) : Nat :=
  if month = 2 then if isLeapYear year then 29 else 28
  else if month = 4 ∨ month = 6 ∨ month = 9 ∨ month = 11 then 30
  else 31

/-- A day of the calendar: four digits, two and two, with hyphens between them. -/
def isDate : List Char → Bool
  | [a, b, c, d, '-', e, f, '-', g, h] =>
    match twoDigits? [a, b], twoDigits? [c, d], twoDigits? [e, f], twoDigits? [g, h] with
    | some century, some year, some month, some day =>
      1 ≤ month && month ≤ 12 && 1 ≤ day && day ≤ daysInMonth (century * 100 + year) month
    | _, _, _, _ => false
  | _ => false

def isClock (hour minute : List Char) : Bool :=
  match twoDigits? hour, twoDigits? minute with
  | some h, some m => h ≤ 23 && m ≤ 59
  | _, _ => false

/-- Seconds, of which a minute may have one more than sixty, with an optional fraction. -/
def isSecond : List Char → Bool
  | a :: b :: r =>
    match twoDigits? [a, b] with
    | none => false
    | some s =>
      s ≤ 60 &&
        match r with
        | [] => true
        | '.' :: ds => !ds.isEmpty && ds.all Char.isDigit
        | _ => false
  | _ => false

/-- A time of day; the seconds may be missing. -/
def isTime : List Char → Bool
  | a :: b :: ':' :: c :: d :: r =>
    isClock [a, b] [c, d] &&
      match r with
      | [] => true
      | ':' :: s => isSecond s
      | _ => false
  | _ => false

def isOffset : List Char → Bool
  | [c] => c == 'Z' || c == 'z'
  | [s, a, b, ':', c, d] => (s == '+' || s == '-') && isClock [a, b] [c, d]
  | _ => false

/-- Whether a character ends the time of day and starts an offset. -/
def startsOffset (c : Char) : Bool := c == 'Z' || c == 'z' || c == '+' || c == '-'

/-- A time of day with an optional offset. -/
def isZonedTime (cs : List Char) : Bool :=
  let time := cs.takeWhile fun c => !startsOffset c
  let offset := cs.dropWhile fun c => !startsOffset c
  isTime time && (offset.isEmpty || isOffset offset)

/-- A date, a time, or both with a `T` or a space between them. -/
def isMoment (cs : List Char) : Bool :=
  isTime cs || isDate cs ||
    (isDate (cs.take 10) &&
      match cs.drop 10 with
      | c :: r => (c == 'T' || c == 't' || c == ' ') && isZonedTime r
      | [] => false)

end PluginDescriptor.Toml
