import PluginDescriptor.Json.Reader

namespace PluginDescriptor.Json.Skip

/-- An array or an object that is still open. -/
inductive Frame where
  | array
  | object
  deriving DecidableEq

/-- Where in the innermost open array or object the text stands. -/
inductive Stage where
  | value
  | afterOpening
  | afterValue
  deriving DecidableEq

/-- The rest of a string up to its closing quote. -/
def stringBody : List Char → Except Fault (List Char)
  | [] => .error .truncated
  | '"' :: r => .ok r
  | '\\' :: 'u' :: a :: b :: c :: d :: r =>
    if (Reader.fourHex? a b c d).isSome then stringBody r else .error .malformed
  | '\\' :: 'u' :: r => .error (Reader.shortHex r)
  | ['\\'] => .error .truncated
  | '\\' :: e :: r =>
    if (Reader.simpleEscape? e).isSome then stringBody r else .error .malformed
  | c :: r => if c.toNat < 32 then .error .malformed else stringBody r

/-- A value that is neither an array nor an object and starts with this character. -/
def scalar (c : Char) : Reader Unit := do
  if c = 'n' then Reader.skip; Reader.word ['u', 'l', 'l']
  else if c = 't' then Reader.skip; Reader.word ['r', 'u', 'e']
  else if c = 'f' then Reader.skip; Reader.word ['a', 'l', 's', 'e']
  else if Reader.startsNumber c then let _ ← Reader.numeral .malformed
  else if c = '"' then
    Reader.skip
    fun cs => (stringBody cs).map ((), ·)
  else Reader.fail .malformed

/-- The key of a member and the colon after it. -/
def key : Reader Unit := do
  Reader.expect '"'
  fun cs => (stringBody cs).map ((), ·)
  Reader.expect ':'

/-- Goes on until every open array and object is closed. Every step takes a character, so `fuel` is
enough when it is the length of the text. -/
def go : (fuel : Nat) → List Frame → Stage → List Char → Except Fault (List Char)
  | 0, _, _, _ => .error .malformed
  | fuel + 1, frames, stage, cs =>
    match Reader.peek cs with
    | .error f => .error f
    | .ok (c, cs) =>
      let closes : Bool := match frames with
        | .array :: _ => c == ']'
        | .object :: _ => c == '\x7d'
        | [] => false
      if stage ≠ .value ∧ closes = true then
        match frames.tail with
        | [] => .ok cs.tail
        | outer => go fuel outer .afterValue cs.tail
      else if stage = .afterValue ∧ c ≠ ',' then .error .malformed
      else
        let cs := if stage = .afterValue then cs.tail else cs
        let start := if stage ≠ .value ∧ frames.head? = some .object then key cs else .ok ((), cs)
        match start with
        | .error f => .error f
        | .ok (_, cs) =>
          match Reader.peek cs with
          | .error f => .error f
          | .ok ('[', cs) => go fuel (.array :: frames) .afterOpening cs.tail
          | .ok ('\x7b', cs) => go fuel (.object :: frames) .afterOpening cs.tail
          | .ok (c, cs) =>
            match scalar c cs with
            | .error f => .error f
            | .ok (_, cs) =>
              match frames with
              | [] => .ok cs
              | _ => go fuel frames .afterValue cs

/-- Passes over one value. -/
def value : Reader Unit := fun cs => (go (cs.length + 1) [] .value cs).map ((), ·)

end PluginDescriptor.Json.Skip
