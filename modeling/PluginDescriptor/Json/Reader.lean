import PluginDescriptor.Json.Basic

namespace PluginDescriptor.Json

abbrev Reader (α : Type) : Type := StateT (List Char) (Except Fault) α

namespace Reader

variable {α σ : Type}

/-- How deep arrays and objects may nest. -/
def maxDepth : Nat := 127

def fail (f : Fault) : Reader α := fun _ => .error f

def mismatch (m : Mismatch) : Reader α := fail (.unsuitable m)

def isSpace (c : Char) : Bool := c == ' ' || c == '\n' || c == '\t' || c == '\r'

/-- Skips white space and says which character follows. -/
def peek : Reader Char := fun cs =>
  match cs.dropWhile isSpace with
  | [] => .error .truncated
  | c :: r => .ok (c, c :: r)

def skip : Reader Unit := fun cs => .ok ((), cs.tail)

/-- Skips white space and the given character, which has to follow. -/
def expect (c : Char) : Reader Unit := do
  if (← peek) = c then skip else fail .malformed

/-- The given characters have to follow at once. -/
def word : List Char → Reader Unit
  | [] => pure ()
  | w :: ws => fun cs =>
    match cs with
    | [] => .error .truncated
    | c :: r => if c = w then word ws r else .error .malformed

/-- One more array or object is opened. -/
def deeper (depth : Nat) : Reader Nat :=
  match depth with
  | 0 => fail .malformed
  | d + 1 => pure d

def natOfDigits (cs : List Char) : Nat := cs.foldl (fun n c => n * 10 + Numeral.digit c) 0

/-- At least one digit. `atEnd` is the fault of a text that ends before it. -/
def digits (atEnd : Fault) : Reader (List Char) := fun cs =>
  match cs with
  | [] => .error atEnd
  | c :: _ =>
    if c.isDigit then .ok (cs.takeWhile Char.isDigit, cs.dropWhile Char.isDigit)
    else .error .malformed

/-- The digits before the point: no zero stands before another digit. -/
def whole (atEnd : Fault) : Reader (List Char) := do
  let ds ← digits atEnd
  match ds with
  | '0' :: _ :: _ => fail .malformed
  | _ => pure ds

/-- Whether one of these characters comes next; if so it is dropped. -/
def optional (options : List Char) : Reader (Option Char) := fun cs =>
  match cs with
  | [] => .ok (none, [])
  | c :: r => if c ∈ options then .ok (some c, r) else .ok (none, c :: r)

def numeral (atEnd : Fault) : Reader Numeral := do
  let sign ← optional ['-']
  let whole ← whole atEnd
  let point ← optional ['.']
  let fraction ← if point.isSome then some <$> digits atEnd else pure none
  let mark ← optional ['e', 'E']
  let exponent ←
    if mark.isSome then do
      let sign ← optional ['+', '-']
      let n ← natOfDigits <$> digits atEnd
      pure (some (if sign = some '-' then -(n : Int) else n))
    else pure none
  pure { negative := sign.isSome, whole, fraction, exponent }

/-- A number; one that no double can hold is malformed. -/
def number : Reader Number := do
  match (← numeral .truncated).value? with
  | some n => pure n
  | none => fail .malformed

def hexValue? (c : Char) : Option Nat :=
  if c.isDigit then some (c.toNat - '0'.toNat)
  else if 'a' ≤ c ∧ c ≤ 'f' then some (c.toNat - 'a'.toNat + 10)
  else if 'A' ≤ c ∧ c ≤ 'F' then some (c.toNat - 'A'.toNat + 10)
  else none

def fourHex? (a b c d : Char) : Option Nat :=
  match hexValue? a, hexValue? b, hexValue? c, hexValue? d with
  | some a, some b, some c, some d => some (((a * 16 + b) * 16 + c) * 16 + d)
  | _, _, _, _ => none

/-- The fault of fewer than four characters where four hexadecimal digits should be: the text has
ended only if it also has fewer than four bytes. -/
def shortHex (cs : List Char) : Fault :=
  if (String.ofList cs).utf8ByteSize < 4 then .truncated else .malformed

/-- The character that a backslash and this letter write. -/
def simpleEscape? : Char → Option Char
  | '"' => some '"'
  | '\\' => some '\\'
  | '/' => some '/'
  | 'b' => some '\x08'
  | 'f' => some '\x0c'
  | 'n' => some '\n'
  | 'r' => some '\r'
  | 't' => some '\t'
  | _ => none

def isHighSurrogate (n : Nat) : Bool := 0xD800 ≤ n && n ≤ 0xDBFF

def isLowSurrogate (n : Nat) : Bool := 0xDC00 ≤ n && n ≤ 0xDFFF

/-- Puts a character in front of what is read after it. -/
def consChar (c : Char) : Except Fault (List Char × List Char) → Except Fault (List Char × List Char)
  | .error f => .error f
  | .ok (cs, rest) => .ok (c :: cs, rest)

/-- The rest of a string up to its closing quote. After the first half of a surrogate pair, `high`,
the second half has to follow at once. -/
def stringBody : (high : Option Nat) → List Char → Except Fault (List Char × List Char)
  | _, [] => .error .truncated
  | none, '"' :: r => .ok ([], r)
  | none, '\\' :: r =>
    match r with
    | [] => .error .truncated
    | 'u' :: a :: b :: c :: d :: r =>
      match fourHex? a b c d with
      | none => .error .malformed
      | some n =>
        if isLowSurrogate n then .error .malformed
        else if isHighSurrogate n then stringBody (some n) r
        else consChar (Char.ofNat n) (stringBody none r)
    | 'u' :: r => .error (shortHex r)
    | e :: r =>
      match simpleEscape? e with
      | none => .error .malformed
      | some c => consChar c (stringBody none r)
  | none, c :: r => if c.toNat < 32 then .error .malformed else consChar c (stringBody none r)
  | some high, '\\' :: 'u' :: a :: b :: c :: d :: r =>
    match fourHex? a b c d with
    | none => .error .malformed
    | some n =>
      if isLowSurrogate n then
        consChar (Char.ofNat (0x10000 + (high - 0xD800) * 0x400 + (n - 0xDC00))) (stringBody none r)
      else .error .malformed
  | some _, '\\' :: 'u' :: r => .error (shortHex r)
  | some _, ['\\'] => .error .truncated
  | some _, _ :: _ => .error .malformed

def stringRest : Reader String := fun cs =>
  match stringBody none cs with
  | .error f => .error f
  | .ok (s, r) => .ok (String.ofList s, r)

def startsNumber (c : Char) : Bool := c == '-' || c.isDigit

/-- Reads as much of a value as it takes to say what it is. -/
def found : Reader Found := do
  let c ← peek
  if c = 'n' then skip; word ['u', 'l', 'l']; pure .null
  else if c = 't' then skip; word ['r', 'u', 'e']; pure (.bool true)
  else if c = 'f' then skip; word ['a', 'l', 's', 'e']; pure (.bool false)
  else if startsNumber c then Found.ofNumber <$> number
  else if c = '"' then skip; Found.str <$> stringRest
  else if c = '[' then pure .sequence
  else if c = '\x7b' then pure .map
  else fail .malformed

/-- Reports what stands here in place of what was expected. -/
def reject (expected : String) : Reader α := do
  mismatch (.kind (← found) expected)

def string (expected : String) : Reader String := do
  if (← peek) = '"' then skip; stringRest else reject expected

/-- Nothing but the word for it. -/
def null : Reader Unit := do
  if (← peek) = 'n' then skip; word ['u', 'l', 'l'] else reject "unit"

/-- The items of an array that follow one of its items, and the closing bracket. -/
def moreItems (item : Reader α) : Nat → Reader (List α)
  | 0 => fail .malformed
  | fuel + 1 => do
    let c ← peek
    if c = ']' then skip; pure []
    else if c = ',' then
      skip
      let x ← item
      let r ← moreItems item fuel
      pure (x :: r)
    else fail .malformed

/-- What follows the opening bracket of an array. Every item takes a character, so the length of
the text bounds their number. -/
def items (item : Reader α) : Reader (List α) := do
  if (← peek) = ']' then skip; pure []
  else
    let x ← item
    let r ← moreItems item ((← get).length + 1)
    pure (x :: r)

def array (depth : Nat) (item : Nat → Reader α) : Reader (List α) := do
  if (← peek) = '[' then
    let depth ← deeper depth
    skip
    items (item depth)
  else reject "a sequence"

/-- The next element of an array of known parts, or `none` if the array ends here. -/
def element? (isFirst : Bool) (item : Reader α) : Reader (Option α) := do
  let c ← peek
  if c = ']' then pure none
  else if isFirst then some <$> item
  else if c = ',' then skip; some <$> item
  else fail .malformed

/-- A member of an object: what its key allows decides how its value is read. -/
def memberOf (value : σ → String → Except Fault (Reader σ)) (acc : σ) : Reader σ := do
  if (← peek) = '"' then
    skip
    let key ← stringRest
    match value acc key with
    | .error f => fail f
    | .ok reader =>
      expect ':'
      reader
  else fail .malformed

/-- The members of an object that follow one of its members, and the closing brace. -/
def moreMembers (value : σ → String → Except Fault (Reader σ)) : Nat → σ → Reader σ
  | 0, _ => fail .malformed
  | fuel + 1, acc => do
    let c ← peek
    if c = '\x7d' then skip; pure acc
    else if c = ',' then
      skip
      let acc ← memberOf value acc
      moreMembers value fuel acc
    else fail .malformed

def members (value : σ → String → Except Fault (Reader σ)) (start : σ) : Reader σ := do
  if (← peek) = '\x7d' then skip; pure start
  else
    let acc ← memberOf value start
    moreMembers value ((← get).length + 1) acc

def pick (options : List (String × α)) (name : String) : Reader α :=
  match options.lookup name with
  | some a => pure a
  | none => mismatch (.variant name (options.map Prod.fst))

/-- The key of an object that has no other, and the colon after it is still to come. -/
def onlyKey : Reader String := do
  expect '"'
  stringRest

/-- One of several constants: its name, or an object with the name as its only key and nothing as
the value. -/
def choice (depth : Nat) (options : List (String × α)) : Reader α := do
  let c ← peek
  if c = '"' then skip; pick options (← stringRest)
  else if c = '\x7b' then
    let _ ← deeper depth
    skip
    let a ← pick options (← onlyKey)
    expect ':'
    null
    expect '\x7d'
    pure a
  else fail .malformed

def tree (depth : Nat) : Reader Json := do
  let c ← peek
  if c = 'n' then skip; word ['u', 'l', 'l']; pure .null
  else if c = 't' then skip; word ['r', 'u', 'e']; pure (.bool true)
  else if c = 'f' then skip; word ['a', 'l', 's', 'e']; pure (.bool false)
  else if startsNumber c then Json.number <$> number
  else if c = '"' then skip; Json.str <$> stringRest
  else
    match depth with
    | 0 => fail .malformed
    | d + 1 =>
      if c = '[' then skip; Json.array <$> items (tree d)
      else if c = '\x7b' then
        skip
        let value (acc : List (String × Json)) (key : String) : Except Fault (Reader _) :=
          .ok do return (key, ← tree d) :: acc
        (fun acc => Json.object acc.reverse) <$> members value []
      else fail .malformed

/-- Reads a text that holds one value and nothing after it. -/
def run (reader : Reader α) (text : String) : Except Fault α :=
  match reader text.toList with
  | .error f => .error f
  | .ok (a, rest) => if rest.all isSpace then .ok a else .error .malformed

end Reader
end PluginDescriptor.Json
