import PluginDescriptor.Toml.Moment
import PluginDescriptor.Toml.Number
import PluginDescriptor.Toml.Table

namespace PluginDescriptor.Toml

/-- How deep arrays and inline tables may nest. -/
def maxDepth : Nat := 80

/-- How many keys with dots between them may stand in a row. -/
def maxKeys : Nat := 80

def skipBlanks (cs : List Char) : List Char := cs.dropWhile isBlank

/-- Skips blanks, line ends and comments. -/
def skipTrivia : (inComment : Bool) → List Char → Option (List Char)
  | _, [] => some []
  | _, '\n' :: r => skipTrivia false r
  | _, '\r' :: '\n' :: r => skipTrivia false r
  | true, c :: r => if isPlain c then skipTrivia true r else none
  | false, c :: r =>
    if isBlank c then skipTrivia false r
    else if c = '#' then skipTrivia true r
    else some (c :: r)

/-- Skips a comment up to the end of its line. -/
def skipComment : List Char → Option (List Char)
  | [] => some []
  | '\n' :: r => some r
  | '\r' :: '\n' :: r => some r
  | c :: r => if isPlain c then skipComment r else none

/-- Skips the rest of a line, which holds at most a comment. -/
def endLine (cs : List Char) : Option (List Char) :=
  match skipBlanks cs with
  | [] => some []
  | '\n' :: r => some r
  | '\r' :: '\n' :: r => some r
  | '#' :: r => skipComment r
  | _ => none

def isBareKeyChar (c : Char) : Bool := c.isAlphanum || c == '_' || c == '-'

/-- A key without dots. -/
def readKey (cs : List Char) : Read String :=
  match cs with
  | [] => none
  | c :: _ =>
    if c = '"' ∨ c = '\'' then
      match readShort cs with
      | none => none
      | some (key, r) => some (String.ofList key, r)
    else if isBareKeyChar c then
      some (String.ofList (cs.takeWhile isBareKeyChar), cs.dropWhile isBareKeyChar)
    else none

/-- Keys with dots between them, at most as many as given: those before the last one, and the last
one. -/
def readKeys : (most : Nat) → List Char → Read (List String × String)
  | 0, _ => none
  | most + 1, cs =>
    match readKey (skipBlanks cs) with
    | none => none
    | some (key, r) =>
      match skipBlanks r with
      | '.' :: r =>
        match readKeys most r with
        | none => none
        | some ((path, last), r) => some ((key :: path, last), r)
      | r => some (([], key), r)

/-- Whether a character ends a value that is neither quoted nor bracketed. -/
def endsScalar (c : Char) : Bool :=
  [' ', '\t', '\n', '\r', ',', '[', ']', '\x7b', '\x7d', '#', '=', '"', '\''].contains c

/-- A number, a truth value, a date or a time. A single space may stand between a date and a
time. -/
def readScalar (cs : List Char) : Read Node :=
  let word := cs.takeWhile fun c => !endsScalar c
  let rest := cs.dropWhile fun c => !endsScalar c
  match isDate word, rest with
  | true, ' ' :: d :: r =>
    if d.isDigit then
      let time := (d :: r).takeWhile fun c => !endsScalar c
      if isMoment (word ++ ' ' :: time) then
        some (.closed, (d :: r).dropWhile fun c => !endsScalar c)
      else none
    else some (.closed, rest)
  | _, _ => if isNumberOrFlag word || isMoment word then some (.closed, rest) else none

/-- The items of an array up to its closing bracket. -/
def readItems (value : List Char → Read Node) : (fuel : Nat) → List Char → Read Unit
  | 0, _ => none
  | fuel + 1, cs =>
    match skipTrivia false cs with
    | none => none
    | some (']' :: r) => some ((), r)
    | some cs =>
      match value cs with
      | none => none
      | some (_, r) =>
        match skipTrivia false r with
        | some (']' :: r) => some ((), r)
        | some (',' :: r) => readItems value fuel r
        | _ => none

/-- A key, an equals sign and a value. The line may end on either side of the equals sign. -/
def readEntry (value : List Char → Read Node) (t : Table) (cs : List Char) : Read Table :=
  match readKeys maxKeys cs with
  | none => none
  | some ((path, key), r) =>
    match skipTrivia false r with
    | some ('=' :: r) =>
      match (skipTrivia false r).bind value with
      | none => none
      | some (v, r) => (t.define key v path).map fun t => (t, r)
    | _ => none

/-- The entries of an inline table up to its closing brace. -/
def readInline (value : List Char → Read Node) : (fuel : Nat) → Table → List Char → Read Table
  | 0, _, _ => none
  | fuel + 1, t, cs =>
    match skipTrivia false cs with
    | none => none
    | some ('\x7d' :: r) => some (t, r)
    | some cs =>
      match readEntry value t cs with
      | none => none
      | some (t, r) =>
        match skipTrivia false r with
        | some ('\x7d' :: r) => some (t, r)
        | some (',' :: r) => readInline value fuel t r
        | _ => none

/-- A value; `depth` bounds how deep arrays and inline tables nest. -/
def readValue : (depth : Nat) → List Char → Read Node
  | depth, cs =>
    match cs with
    | [] => none
    | c :: r =>
      if c = '"' ∨ c = '\'' then
        match readText cs with
        | none => none
        | some (s, r) => some (.text (String.ofList s), r)
      else if c = '[' then
        match depth with
        | 0 => none
        | depth + 1 => (readItems (readValue depth) (r.length + 1) r).map fun (_, r) => (.closed, r)
      else if c = '\x7b' then
        match depth with
        | 0 => none
        | depth + 1 =>
          (readInline (readValue depth) (r.length + 1) [] r).map fun (_, r) => (.closed, r)
      else readScalar cs

structure Header where
  isList : Bool
  path : List String
  key : String

/-- A header after its first bracket, up to the end of its line. -/
def readHeader (cs : List Char) : Read Header :=
  let (isList, cs) := match cs with
    | '[' :: r => (true, r)
    | r => (false, r)
  match readKeys maxKeys cs with
  | none => none
  | some ((path, key), r) =>
    let rest := match isList, r with
      | false, ']' :: r => some r
      | true, ']' :: ']' :: r => some r
      | _, _ => none
    (rest.bind endLine).map fun r => (⟨isList, path, key⟩, r)

def openHeader (h : Header) (root : Table) : Option Table :=
  root.modifyAt (if h.isList then Table.addTable h.key else Table.openTable h.key) h.path

/-- The lines of a document. `here` is the path of the table that the last header has opened. Every
line takes a character, so the length of the text bounds their number. -/
def readLines : (fuel : Nat) → (here : List String) → Table → List Char → Option Table
  | 0, _, _, _ => none
  | fuel + 1, here, root, cs =>
    match skipTrivia false cs with
    | none => none
    | some [] => some root
    | some ('[' :: r) =>
      match readHeader r with
      | none => none
      | some (h, r) =>
        match openHeader h root with
        | none => none
        | some root => readLines fuel (h.path ++ [h.key]) root r
    | some cs =>
      match readKeys maxKeys cs with
      | some ((path, key), '=' :: r) =>
        match readValue maxDepth (skipBlanks r) with
        | none => none
        | some (v, r) =>
          match endLine r, root.modifyAt (Table.define key v path) here with
          | some r, some root => readLines fuel here root r
          | _, _ => none
      | _ => none

/-- The table that a document describes. A mark of the byte order at the front is skipped. -/
def parse (text : String) : Option Table :=
  let cs := match text.toList with
    | '\uFEFF' :: r => r
    | r => r
  readLines (cs.length + 1) [] [] cs

end PluginDescriptor.Toml
