namespace PluginDescriptor.Toml

/-- A character that may stand in a string or a comment as it is. -/
def isPlain (c : Char) : Bool := c == '\t' || (32 ≤ c.toNat && c.toNat != 127)

def isBlank (c : Char) : Bool := c == ' ' || c == '\t'

def hexValue? (c : Char) : Option Nat :=
  if c.isDigit then some (c.toNat - '0'.toNat)
  else if 'a' ≤ c ∧ c ≤ 'f' then some (c.toNat - 'a'.toNat + 10)
  else if 'A' ≤ c ∧ c ≤ 'F' then some (c.toNat - 'A'.toNat + 10)
  else none

/-- The number that hexadecimal digits write, continuing from `acc`. -/
def hexNumber? : (acc : Nat) → List Char → Option Nat
  | acc, [] => some acc
  | acc, c :: r =>
    match hexValue? c with
    | none => none
    | some d => hexNumber? (acc * 16 + d) r

/-- The character of a code point that is written in hexadecimal digits. -/
def codePoint? (cs : List Char) : Option Char :=
  match hexNumber? 0 cs with
  | none => none
  | some n => if n.isValidChar then some (Char.ofNat n) else none

/-- The character that a backslash and this letter write. -/
def simpleEscape? : Char → Option Char
  | 'b' => some '\x08'
  | 't' => some '\t'
  | 'n' => some '\n'
  | 'f' => some '\x0c'
  | 'r' => some '\r'
  | 'e' => some '\x1b'
  | '"' => some '"'
  | '\\' => some '\\'
  | _ => none

/-- What a part of a text is, and what comes after it. -/
abbrev Read (α : Type) : Type := Option (α × List Char)

/-- Puts a character in front of what is read after it. -/
def Read.cons (c : Char) : Read (List Char) → Read (List Char)
  | none => none
  | some (cs, rest) => some (c :: cs, rest)

/-- Puts a character, if there is one, in front of what is read after it. -/
def Read.cons? (c : Option Char) (read : Read (List Char)) : Read (List Char) :=
  match c with
  | none => none
  | some c => read.cons c

def basicBody : List Char → Read (List Char)
  | [] => none
  | '"' :: r => some ([], r)
  | '\\' :: r =>
    match r with
    | 'x' :: a :: b :: r => (basicBody r).cons? (codePoint? [a, b])
    | 'u' :: a :: b :: c :: d :: r => (basicBody r).cons? (codePoint? [a, b, c, d])
    | 'U' :: a :: b :: c :: d :: e :: f :: g :: h :: r =>
      (basicBody r).cons? (codePoint? [a, b, c, d, e, f, g, h])
    | e :: r => (basicBody r).cons? (simpleEscape? e)
    | [] => none
  | c :: r => if isPlain c then (basicBody r).cons c else none

/-- What follows the opening quote of a string on one line without escapes. -/
def literalBody : List Char → Read (List Char)
  | [] => none
  | '\'' :: r => some ([], r)
  | c :: r => if isPlain c then (literalBody r).cons c else none

/-- Up to two further quotes after the three that close a string belong to it. -/
def closing (quote : Char) : List Char → List Char × List Char
  | c :: d :: r =>
    if c = quote then if d = quote then ([c, d], r) else ([c], d :: r) else ([], c :: d :: r)
  | [c] => if c = quote then ([c], []) else ([], [c])
  | [] => ([], [])

/-- What a backslash at the end of a line has made of the text that follows it. -/
inductive Continuation where
  /-- Nothing: the text counts. -/
  | text
  /-- The line has to end, apart from blanks. -/
  | endOfLine
  /-- Blanks and line ends are dropped. -/
  | trimming
  deriving DecidableEq

/-- What follows the opening quotes of a string on several lines. -/
def basicLines : Continuation → List Char → Read (List Char)
  | _, [] => none
  | .endOfLine, '\n' :: r => basicLines .trimming r
  | .endOfLine, '\r' :: '\n' :: r => basicLines .trimming r
  | .endOfLine, c :: r => if isBlank c then basicLines .endOfLine r else none
  | .trimming, '\n' :: r => basicLines .trimming r
  | .trimming, '\r' :: '\n' :: r => basicLines .trimming r
  | .trimming, ' ' :: r => basicLines .trimming r
  | .trimming, '\t' :: r => basicLines .trimming r
  | _, '"' :: '"' :: '"' :: r => some (closing '"' r)
  | _, '\\' :: r =>
    match r with
    | 'x' :: a :: b :: r => (basicLines .text r).cons? (codePoint? [a, b])
    | 'u' :: a :: b :: c :: d :: r => (basicLines .text r).cons? (codePoint? [a, b, c, d])
    | 'U' :: a :: b :: c :: d :: e :: f :: g :: h :: r =>
      (basicLines .text r).cons? (codePoint? [a, b, c, d, e, f, g, h])
    | '\n' :: r => basicLines .trimming r
    | '\r' :: '\n' :: r => basicLines .trimming r
    | ' ' :: r => basicLines .endOfLine r
    | '\t' :: r => basicLines .endOfLine r
    | e :: r => (basicLines .text r).cons? (simpleEscape? e)
    | [] => none
  | _, '\n' :: r => (basicLines .text r).cons '\n'
  | _, '\r' :: '\n' :: r => ((basicLines .text r).cons '\n').cons '\r'
  | _, c :: r => if isPlain c then (basicLines .text r).cons c else none

/-- What follows the opening quotes of a string on several lines without escapes. -/
def literalLines : List Char → Read (List Char)
  | [] => none
  | '\'' :: '\'' :: '\'' :: r => some (closing '\'' r)
  | '\n' :: r => (literalLines r).cons '\n'
  | '\r' :: '\n' :: r => ((literalLines r).cons '\n').cons '\r'
  | c :: r => if isPlain c then (literalLines r).cons c else none

/-- A line end right after the opening quotes of a string on several lines does not count. -/
def dropLineEnd : List Char → List Char
  | '\n' :: r => r
  | '\r' :: '\n' :: r => r
  | r => r

def readShort : List Char → Read (List Char)
  | '"' :: r => basicBody r
  | '\'' :: r => literalBody r
  | _ => none

def readText : List Char → Read (List Char)
  | '"' :: '"' :: '"' :: r => basicLines .text (dropLineEnd r)
  | '\'' :: '\'' :: '\'' :: r => literalLines (dropLineEnd r)
  | r => readShort r

/-- A control character that no string without escapes can hold. -/
def needsEscape (c : Char) : Bool := !(isPlain c || c == '\n')

/-- The length of the longest row of one character, continuing a row of `run`. -/
def longestRun (q : Char) : (run : Nat) → List Char → Nat
  | run, [] => run
  | run, c :: r => if c = q then longestRun q (run + 1) r else max run (longestRun q 0 r)

/-- A number below 256 as four hexadecimal digits. -/
def fourDigits (n : Nat) : List Char :=
  ['0', '0', (Nat.digitChar (n / 16)).toUpper, (Nat.digitChar (n % 16)).toUpper]

/-- The escape of a character that cannot stand in double quotes, if it is one. -/
def escapeOf? (lines : Bool) (c : Char) : Option (List Char) :=
  if c = '\x08' then some ['\\', 'b']
  else if c = '\t' then some ['\\', 't']
  else if c = '\n' then if lines then none else some ['\\', 'n']
  else if c = '\x0c' then some ['\\', 'f']
  else if c = '\r' then some ['\\', 'r']
  else if c = '\\' then some ['\\', '\\']
  else if c.toNat < 32 ∨ c.toNat = 127 then some ('\\' :: 'u' :: fourDigits c.toNat)
  else none

/-- A text between double quotes. On several lines two quotes may stand in a row; `run` is the
number of those right before the text. -/
def escaped (lines : Bool) : (run : Nat) → List Char → List Char
  | _, [] => []
  | run, c :: r =>
    if c = '"' then
      if lines ∧ run < 2 then '"' :: escaped lines (run + 1) r
      else '\\' :: '"' :: escaped lines 0 r
    else
      match escapeOf? lines c with
      | some e => e ++ escaped lines 0 r
      | none => c :: escaped lines 0 r

/-- A text in the quotes of one kind. On several lines a line end comes first if the text has
one. -/
def basicString (cs : List Char) : List Char := '"' :: escaped false 0 cs ++ ['"']

def literalString (cs : List Char) : List Char := '\'' :: cs ++ ['\'']

def firstLineEnd (cs : List Char) : List Char := if cs.contains '\n' then ['\n'] else []

def basicLinesString (cs : List Char) : List Char :=
  ['"', '"', '"'] ++ firstLineEnd cs ++ escaped true 0 cs ++ ['"', '"', '"']

def literalLinesString (cs : List Char) : List Char :=
  ['\'', '\'', '\''] ++ firstLineEnd cs ++ cs ++ ['\'', '\'', '\'']

/-- A text as a string of the first kind that can hold it, the kinds without escapes first. -/
def write (cs : List Char) : List Char :=
  let newline := cs.contains '\n'
  let control := cs.any needsEscape
  let backslash := cs.contains '\\'
  let double := longestRun '"' 0 cs
  let single := longestRun '\'' 0 cs
  if !control ∧ !backslash ∧ double = 0 ∧ !newline then basicString cs
  else if !control ∧ single = 0 ∧ !newline then literalString cs
  else if !control ∧ !backslash ∧ double ≤ 2 then basicLinesString cs
  else if !control ∧ single ≤ 2 then literalLinesString cs
  else if newline then basicLinesString cs
  else basicString cs

end PluginDescriptor.Toml
