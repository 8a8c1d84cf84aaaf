import PluginDescriptor.Path

namespace PluginDescriptor.CommandLine

structure Chatter where
  quiet : Bool := false
  /-- How often more messages were asked for. -/
  verbose : Nat := 0
  noLogFile : Bool := false
  deriving DecidableEq, Repr

namespace Chatter

/-- How many messages are shown; being quiet counts more than being verbose. -/
def level (c : Chatter) : Nat := if c.quiet then 0 else c.verbose

/-- The greatest number of times that asking for more messages counts. -/
def greatest : Nat := 255

/-- The wishes before the name of a command, and those after it. -/
def merge (outer inner : Chatter) : Chatter where
  quiet := outer.quiet || inner.quiet
  verbose := if inner.verbose = 0 then outer.verbose else inner.verbose
  noLogFile := outer.noLogFile || inner.noLogFile

end Chatter

structure GenerateArguments where
  declarations : List String := []
  output : Option Path := none
  defaultVersion : Option String := none
  dryRun : Bool := false
  deriving DecidableEq, Repr

inductive SettingsAction where
  | list
  | assign (key value : String)
  | locate
  deriving DecidableEq, Repr

inductive Command where
  | generate (arguments : GenerateArguments)
  | settings (action : SettingsAction)
  deriving DecidableEq, Repr

/-- What the arguments ask for. -/
inductive Request where
  | version
  | help
  | run (chatter : Chatter) (command : Command)
  deriving DecidableEq, Repr

inductive Flag where
  | quiet | verbose | noLogFile | dryRun | version | help
  deriving DecidableEq, Repr

inductive Valued where
  | declarations | output | defaultVersion
  deriving DecidableEq, Repr

def helpCommand : String := "help"

/-- The place among the commands that the arguments have led to. -/
inductive Level where
  | top | generate | settings | list | assign | locate
  deriving DecidableEq, Repr

namespace Level

def flags : Level → List (String × Flag)
  | .top => ("version", .version) :: common
  | .generate => ("dry-run", .dryRun) :: common
  | _ => common
where
  common : List (String × Flag) :=
    [("quiet", .quiet), ("verbose", .verbose), ("no-log-file", .noLogFile), ("help", .help)]

def letters : Level → List (Char × Flag)
  | .top => ('V', .version) :: common
  | _ => common
where
  common : List (Char × Flag) := [('q', .quiet), ('v', .verbose), ('h', .help)]

def valued : Level → List (String × Valued)
  | .generate =>
    [("declarations", .declarations), ("output", .output), ("default-version", .defaultVersion)]
  | _ => []

def valuedLetters : Level → List (Char × Valued)
  | .generate => [('d', .declarations), ('o', .output)]
  | _ => []

def commands : Level → List (String × Level)
  | .top => [("generate", .generate), ("config", .settings)]
  | .settings => [("show", .list), ("set", .assign), ("path", .locate)]
  | _ => []

/-- Help on the command that the names lead to, if there is such a command. Where there are
commands, help is one of them. -/
def help : Level → List String → Option Request
  | _, [] => some .help
  | level, name :: r =>
    match level.commands.lookup name with
    | some next => next.help r
    | none => if level.commands ≠ [] ∧ name = helpCommand ∧ r = [] then some .help else none

end Level

inductive Token where
  | flag (f : Flag)
  | valued (o : Valued) (attached : Option String)
  | value (s : String)
  | unknown
  deriving DecidableEq, Repr

/-- The options whose letters stand in one argument. What follows the letter of an option with a
value is the value. -/
def letterTokens (level : Level) : List Char → List Token
  | [] => []
  | c :: r =>
    match level.letters.lookup c with
    | some f => .flag f :: letterTokens level r
    | none =>
      match level.valuedLetters.lookup c with
      | none => [.unknown]
      | some o =>
        match r with
        | [] => [.valued o none]
        | '=' :: v => [.valued o (some (String.ofList v))]
        | v => [.valued o (some (String.ofList v))]

/-- An option with a long name and perhaps a value after an equals sign. -/
def longToken (level : Level) (cs : List Char) : Token :=
  let name := String.ofList (cs.takeWhile (· ≠ '='))
  let attached := match cs.dropWhile (· ≠ '=') with
    | [] => none
    | _ :: v => some (String.ofList v)
  match level.flags.lookup name, attached with
  | some f, none => .flag f
  | some _, some _ => .unknown
  | none, _ =>
    match level.valued.lookup name with
    | some o => .valued o attached
    | none => .unknown

def tokens (level : Level) (arg : String) : List Token :=
  match arg.toList with
  | '-' :: '-' :: r => [longToken level r]
  | '-' :: c :: r => letterTokens level (c :: r)
  | _ => [.value arg]

structure Progress where
  level : Level := .top
  outer : Chatter := {}
  inner : Chatter := {}
  arguments : GenerateArguments := {}
  values : List String := []
  /-- The option that takes the next values, and whether it has got one. -/
  waiting : Option (Valued × Bool) := none
  deriving DecidableEq, Repr

namespace Progress

/-- Gives an option a value. A path is not empty, and only declarations are given several times. -/
def assign (p : Progress) (o : Valued) (v : String) : Option Progress :=
  let a := p.arguments
  match o with
  | .declarations =>
    if v = "" then none
    else some { p with arguments := { a with declarations := a.declarations ++ [v] } }
  | .output =>
    if v = "" ∨ a.output.isSome then none
    else some { p with arguments := { a with output := some ⟨v⟩ } }
  | .defaultVersion =>
    if a.defaultVersion.isSome then none
    else some { p with arguments := { a with defaultVersion := some v } }

/-- Ends the values of the option that was waiting for some. It has to have one. -/
def settle (p : Progress) : Option Progress :=
  match p.waiting with
  | some (_, false) => none
  | _ => some { p with waiting := none }

/-- Sets a flag. Only the wish for more messages may be repeated. -/
def raise (p : Progress) (f : Flag) : Option Progress :=
  let c := p.inner
  match f with
  | .quiet => if c.quiet then none else some { p with inner := { c with quiet := true } }
  | .verbose =>
    some { p with inner := { c with verbose := min (c.verbose + 1) Chatter.greatest } }
  | .noLogFile =>
    if c.noLogFile then none else some { p with inner := { c with noLogFile := true } }
  | .dryRun =>
    if p.arguments.dryRun then none
    else some { p with arguments := { p.arguments with dryRun := true } }
  | .version => none
  | .help => none

/-- Takes a value: for the option that is waiting for one, as the name of a command, or as one of
the values of a command. -/
def accept (p : Progress) (v : String) : Option Progress :=
  match p.waiting with
  | some (.declarations, _) =>
    (p.assign .declarations v).map fun p => { p with waiting := some (.declarations, true) }
  | some (o, _) => (p.assign o v).map fun p => { p with waiting := none }
  | none =>
    match p.level.commands.lookup v with
    | some level =>
      some { p with level, outer := p.outer.merge p.inner, inner := {} }
    | none =>
      if p.level = .assign ∧ p.values.length < 2 then some { p with values := p.values ++ [v] }
      else none

def acceptTrailing (p : Progress) (v : String) : Option Progress :=
  if p.level = .assign ∧ p.values.length < 2 then some { p with values := p.values ++ [v] }
  else none

/-- What a piece of the arguments leads to: a request at once, or more progress. -/
def step (p : Progress) : Token → Option (Request ⊕ Progress)
  | .unknown => none
  | .value v => (p.accept v).map .inr
  | .flag f =>
    p.settle.bind fun p =>
      match f with
      | .version => some (.inl .version)
      | .help => some (.inl .help)
      | f => (p.raise f).map .inr
  | .valued o attached =>
    p.settle.bind fun p =>
      match attached with
      | some v => (p.assign o v).map .inr
      | none => some (.inr { p with waiting := some (o, false) })

def steps (p : Progress) : List Token → Option (Request ⊕ Progress)
  | [] => some (.inr p)
  | k :: r =>
    match p.step k with
    | none => none
    | some (.inl request) => some (.inl request)
    | some (.inr p) => p.steps r

/-- What is asked for when there are no more arguments. -/
def finish (p : Progress) : Option Request :=
  p.settle.bind fun p =>
    let chatter := p.outer.merge p.inner
    match p.level, p.values with
    | .generate, _ =>
      if p.arguments.declarations.isEmpty then none
      else some (.run chatter (.generate p.arguments))
    | .list, _ => some (.run chatter (.settings .list))
    | .locate, _ => some (.run chatter (.settings .locate))
    | .assign, [key, value] => some (.run chatter (.settings (.assign key value)))
    | _, _ => none

def trailing (p : Progress) : List String → Option Request
  | [] => p.finish
  | v :: r => (p.acceptTrailing v).bind fun p => p.trailing r

def run (p : Progress) : List String → Option Request
  | [] => p.finish
  | arg :: r =>
    if arg = "--" then p.settle.bind fun p => p.trailing r
    else if arg = helpCommand ∧ p.waiting = none ∧ p.level.commands ≠ [] then p.level.help r
    else
      match p.steps (tokens p.level arg) with
      | none => none
      | some (.inl request) => some request
      | some (.inr p) => p.run r

end Progress

/-- What the arguments ask for, if they make sense. Options that concern messages may stand before and after
the name of a command; after two hyphens only values follow. -/
def parse (args : List String) : Option Request := Progress.run {} args

end PluginDescriptor.CommandLine
