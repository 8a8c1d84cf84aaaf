import PluginDescriptor.Json.Number
import PluginDescriptor.Text

namespace PluginDescriptor

/-- A JSON value. The members of an object keep the order of the text. -/
inductive Json where
  | null
  | bool (b : Bool)
  | number (n : Json.Number)
  | str (s : String)
  | array (items : List Json)
  | object (members : List (String × Json))
  deriving Inhabited

namespace Json

/-- What stands where something else was wanted. -/
inductive Found where
  | null
  | bool (b : Bool)
  | integer (n : Int)
  | double (text : String)
  | str (s : String)
  | sequence
  | map
  | bareVariant
  deriving DecidableEq, Repr

namespace Found

def ofNumber : Number → Found
  | .integer n => .integer n
  | .double x => .double (doubleText x)

def text : Found → String
  | null => "null"
  | bool b => "boolean `" ++ (if b then "true" else "false") ++ "`"
  | integer n => "integer `" ++ toString n ++ "`"
  | double t => "floating point `" ++ t ++ "`"
  | str s => "string " ++ Text.quoted s
  | sequence => "sequence"
  | map => "map"
  | bareVariant => "unit variant"

end Found

/-- Why a JSON value is not of the wanted kind. -/
inductive Mismatch where
  | kind (found : Found) (expected : String)
  | count (n : Nat) (expected : String)
  | variant (name : String) (known : List String)
  | missing (field : String)
  | duplicate (field : String)
  | noAlternative (type : String)
  deriving DecidableEq, Repr

namespace Mismatch

def code (s : String) : String := "`" ++ s ++ "`"

/-- The names that would have been right, as a message lists them. -/
def choices : List String → String
  | [] => "nothing"
  | [a] => code a
  | [a, b] => code a ++ " or " ++ code b
  | names => "one of " ++ String.intercalate ", " (names.map code)

def message : Mismatch → String
  | kind found expected => "invalid type: " ++ found.text ++ ", expected " ++ expected
  | count n expected => "invalid length " ++ toString n ++ ", expected " ++ expected
  | variant name known => "unknown variant " ++ code name ++ ", expected " ++ choices known
  | missing field => "missing field " ++ code field
  | duplicate field => "duplicate field " ++ code field
  | noAlternative type => "data did not match any variant of untagged enum " ++ type

end Mismatch

/-- Why a text could not be read. -/
inductive Fault where
  /-- It ends inside a value. -/
  | truncated
  | malformed
  /-- It is JSON as far as it was read, but not of the wanted kind. -/
  | unsuitable (why : Mismatch)
  deriving DecidableEq, Repr

end Json

namespace Json

/-- A number below 256 as two hexadecimal digits. -/
def hexPair (n : Nat) : List Char := [Nat.digitChar (n / 16), Nat.digitChar (n % 16)]

/-- One character of a string: quote, backslash and control characters are escaped. -/
def escapeChar (c : Char) : List Char :=
  if c = '"' then ['\\', '"']
  else if c = '\\' then ['\\', '\\']
  else if c = '\n' then ['\\', 'n']
  else if c = '\r' then ['\\', 'r']
  else if c = '\t' then ['\\', 't']
  else if c = '\x08' then ['\\', 'b']
  else if c = '\x0c' then ['\\', 'f']
  else if c.toNat < 32 then ['\\', 'u', '0', '0'] ++ hexPair c.toNat
  else [c]

def stringChars (s : String) : List Char := '"' :: s.toList.flatMap escapeChar ++ ['"']

def commas : List (List Char) → List Char
  | [] => []
  | [a] => a
  | a :: r => a ++ ',' :: commas r

mutual

def chars : Json → List Char
  | .null => ['n', 'u', 'l', 'l']
  | .bool true => ['t', 'r', 'u', 'e']
  | .bool false => ['f', 'a', 'l', 's', 'e']
  | .number n => n.text.toList
  | .str s => stringChars s
  | .array items => '[' :: commas (itemTexts items) ++ [']']
  | .object members => '\x7b' :: commas (memberTexts members) ++ ['\x7d']

def itemTexts : List Json → List (List Char)
  | [] => []
  | v :: r => v.chars :: itemTexts r

def memberTexts : List (String × Json) → List (List Char)
  | [] => []
  | (k, v) :: r => (stringChars k ++ ':' :: v.chars) :: memberTexts r

end

/-- The text of a value, on one line and without spaces. -/
def compact (v : Json) : String := String.ofList v.chars

end Json

end PluginDescriptor
