import PluginDescriptor.Yaml.Untagged

namespace PluginDescriptor.Yaml

def isBreak (c : Char) : Bool :=
  c == '\n' || c == '\r' || c.val == 0x85 || c.val == 0x2028 || c.val == 0x2029

def isGap (c : Char) : Bool := c == ' ' || c == '\t'

/-- The characters after which an indicator is one, and before which it is one. -/
def isSeparator (c : Char) : Bool := isGap c || isBreak c || c == '\x00'

/-- The characters that may stand unescaped. -/
def isPrintable (c : Char) : Bool :=
  c == '\n' || (0x20 ≤ c.val && c.val ≤ 0x7E) ||
    (0xA0 ≤ c.val && c.val != 0xFEFF && c.val != 0xFFFE && c.val != 0xFFFF)

inductive Style where
  | plain
  | single
  | double
  | literal
  deriving DecidableEq, Repr

def leadingIndicators : List Char :=
  ['#', ',', '[', ']', '\x7b', '\x7d', '&', '*', '!', '|', '>', '\'', '"', '%', '@', '\x60']

/-- Whether nothing or a separator stands at the front. -/
def startsSeparated : List Char → Bool
  | [] => true
  | c :: _ => isSeparator c

/-- Whether a colon before a separator or a number sign after one occurs. `separated` says whether a
separator comes before the text. -/
def hasInnerIndicator : (separated : Bool) → List Char → Bool
  | _, [] => false
  | separated, c :: r =>
    (c == ':' && startsSeparated r) || (c == '#' && separated) ||
      hasInnerIndicator (isSeparator c) r

/-- Whether a character of one kind stands right before one of another kind. -/
def hasPair (before after : Char → Bool) : List Char → Bool
  | c :: d :: r => (before c && after d) || hasPair before after (d :: r)
  | _ => false

def isSpace (c : Char) : Bool := c == ' '

def fitsPlain (cs : List Char) : Bool :=
  match cs with
  | [] => false
  | c :: r =>
    !leadingIndicators.contains c &&
      !(['-', '-', '-'].isPrefixOf cs || ['.', '.', '.'].isPrefixOf cs) &&
      !((c == '-' || c == '?' || c == ':') && startsSeparated r) &&
      !hasInnerIndicator true cs && !isSpace c && !(cs.getLast?.any isSpace) &&
      cs.all fun d => isPrintable d && !isBreak d

/-- Whether the text can stand in single quotes, where nothing is escaped. -/
def fitsSingle (cs : List Char) : Bool :=
  cs.all isPrintable && !hasPair isSpace isBreak cs && !hasPair isBreak isSpace cs

def fitsLiteral (cs : List Char) : Bool :=
  cs.all isPrintable && !hasPair isSpace isBreak cs && !(cs.getLast?.any isSpace)

def style (cs : List Char) : Style :=
  if cs.contains '\n' then if fitsLiteral cs then .literal else .double
  else if !isUntaggedValue cs && fitsPlain cs then .plain
  else if fitsSingle cs then .single
  else .double

def spaces (n : Nat) : List Char := List.replicate n ' '

/-- A number in upper case hexadecimal, with zeros in front up to a width. -/
def hexPadded (width n : Nat) : List Char :=
  let ds := (Nat.toDigits 16 n).map Char.toUpper
  List.replicate (width - ds.length) '0' ++ ds

/-- A character that has to be escaped in double quotes. -/
def escape (c : Char) : List Char :=
  match c with
  | '\x00' => ['\\', '0']
  | '\x07' => ['\\', 'a']
  | '\x08' => ['\\', 'b']
  | '\t' => ['\\', 't']
  | '\n' => ['\\', 'n']
  | '\x0b' => ['\\', 'v']
  | '\x0c' => ['\\', 'f']
  | '\r' => ['\\', 'r']
  | '\x1b' => ['\\', 'e']
  | '"' => ['\\', '"']
  | '\\' => ['\\', '\\']
  | '\x85' => ['\\', 'N']
  | '\u2028' => ['\\', 'L']
  | '\u2029' => ['\\', 'P']
  | c =>
    if c.toNat ≤ 0xFF then '\\' :: 'x' :: hexPadded 2 c.toNat
    else if c.toNat ≤ 0xFFFF then '\\' :: 'u' :: hexPadded 4 c.toNat
    else '\\' :: 'U' :: hexPadded 8 c.toNat

def doubleChar (c : Char) : List Char :=
  if !isPrintable c || isBreak c || c == '"' || c == '\\' then escape c else [c]

/-- What stands between single quotes. After line breaks the indentation follows, also at the end;
`broken` says whether a line break comes before the text. -/
def singleBody (indent : Nat) : (broken : Bool) → List Char → List Char
  | broken, [] => if broken then spaces indent else []
  | broken, c :: r =>
    if isBreak c then c :: singleBody indent true r
    else
      (if broken then spaces indent else []) ++ (if c = '\'' then ['\'', '\''] else [c]) ++
        singleBody indent false r

/-- The lines of a literal block. Every line with text is indented. -/
def literalBody (indent : Nat) : (broken : Bool) → List Char → List Char
  | _, [] => []
  | broken, c :: r =>
    if isBreak c then c :: literalBody indent true r
    else (if broken then spaces indent else []) ++ c :: literalBody indent false r

/-- What the first line of a literal block says about indentation and about the breaks at its
end. -/
def literalHeader (cs : List Char) : List Char :=
  let indentation := match cs with
    | c :: _ => if c == ' ' || isBreak c then ['2'] else []
    | [] => []
  let chomping := match cs.reverse with
    | [] => ['-']
    | [c] => if isBreak c then ['+'] else ['-']
    | c :: d :: _ => if !isBreak c then ['-'] else if isBreak d then ['+'] else []
  '|' :: indentation ++ chomping

/-- A text in its style. The indentation is that of continued lines. -/
def scalar (indent : Nat) (cs : List Char) : List Char :=
  match style cs with
  | .plain => cs
  | .single => '\'' :: singleBody indent false cs ++ ['\'']
  | .double => '"' :: cs.flatMap doubleChar ++ ['"']
  | .literal => literalHeader cs ++ '\n' :: literalBody indent true cs

/-- The break after a scalar; a literal block with a break at its end has its own. -/
def lineEnd (cs : List Char) : List Char :=
  if style cs = .literal && cs.getLast?.any isBreak then [] else ['\n']

def scalarLine (indent : Nat) (cs : List Char) : List Char := scalar indent cs ++ lineEnd cs

end PluginDescriptor.Yaml
