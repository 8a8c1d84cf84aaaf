namespace PluginDescriptor

structure Path where
  text : String
  deriving DecidableEq, Repr, Inhabited

inductive PathStep where
  | root
  | here
  | up
  | name (s : String)
  deriving DecidableEq, Repr

namespace Path

/-- The texts between the slashes. -/
def split : List Char → List (List Char)
  | [] => [[]]
  | c :: r =>
    match split r with
    | [] => [[c]]
    | g :: gs => if c = '/' then [] :: g :: gs else (c :: g) :: gs

def segments (p : Path) : List String := (split p.text.toList).map String.ofList

def isAbsolute (p : Path) : Bool :=
  match p.text.toList with
  | '/' :: _ => true
  | _ => false

/-- The step for a text between slashes, if it stands for one. -/
def step? (s : String) : Option PathStep :=
  if s = "" ∨ s = "." then none
  else if s = ".." then some .up
  else some (.name s)

def steps (p : Path) : List PathStep :=
  let start :=
    if p.isAbsolute then [.root]
    else if p.segments.head? = some "." then [.here]
    else []
  start ++ p.segments.filterMap step?

/-- Where a step stands among others; names stand after all else. -/
def PathStep.rank : PathStep → Nat
  | .root => 0
  | .here => 1
  | .up => 2
  | .name _ => 3

/-- Whether a step comes before another; names compare as texts. -/
def stepLt : PathStep → PathStep → Bool
  | .name a, .name b => decide (a < b)
  | a, b => PathStep.rank a < PathStep.rank b

/-- Whether a row of steps comes before another, by the first step in which they differ. -/
def stepsLt : List PathStep → List PathStep → Bool
  | [], [] => false
  | [], _ :: _ => true
  | _ :: _, [] => false
  | a :: r, b :: s => if a = b then stepsLt r s else stepLt a b

/-- The order of paths, step by step. -/
def before (p q : Path) : Bool := stepsLt p.steps q.steps

/-- A path taken from another one: an absolute path stays as it is. -/
def join (base rest : Path) : Path :=
  if rest.isAbsolute then rest
  else
    match base.text.toList.getLast? with
    | none => rest
    | some '/' => ⟨base.text ++ rest.text⟩
    | some _ => ⟨base.text ++ "/" ++ rest.text⟩

/-- Drops, from the end of a path, what names nothing: slashes and single points. The list is
reversed. -/
def dropEmptyEnd : List Char → List Char
  | '/' :: r => dropEmptyEnd r
  | '.' :: '/' :: r => dropEmptyEnd ('/' :: r)
  | r => r

/-- What comes before the last name of a path, and the name, if the path ends in one. -/
def splitName? (p : Path) : Option (List Char × List Char) :=
  let rest := dropEmptyEnd p.text.toList.reverse
  let name := (rest.takeWhile (· ≠ '/')).reverse
  if name = [] ∨ name = ['.'] ∨ name = ['.', '.'] then none
  else some ((rest.dropWhile (· ≠ '/')).reverse, name)

def fileName? (p : Path) : Option String := p.splitName?.map fun (_, name) => String.ofList name

/-- A name up to its last point and the rest after it. A point in front does not count. -/
def splitExtension (name : List Char) : List Char × Option (List Char) :=
  let after := (name.reverse.takeWhile (· ≠ '.')).reverse
  let stem := ((name.reverse.dropWhile (· ≠ '.')).drop 1).reverse
  if stem.isEmpty then (name, none) else (stem, some after)

/-- What follows the last point of the last name. -/
def extension? (p : Path) : Option String := do
  let (_, name) ← p.splitName?
  let after ← (splitExtension name).2
  return String.ofList after

/-- The path up to an extension at its very end, the point included. -/
def dropExtension (p : Path) : Path :=
  match p.splitName? with
  | none => p
  | some (front, name) =>
    match splitExtension name with
    | (_, none) => p
    | (stem, some _) =>
      if p.text.toList = front ++ name then ⟨String.ofList (front ++ stem ++ ['.'])⟩ else p

/-- The path with another extension of its last name. A path that has no name, or none once its own
extension is gone, gets none. -/
def withExtension (p : Path) (extension : String) : Path :=
  let bare := p.dropExtension
  match bare.splitName? with
  | none => bare
  | some (front, name) =>
    ⟨String.ofList (front ++ (splitExtension name).1 ++ '.' :: extension.toList)⟩

/-- The path without its last step; the empty path and the root have none. -/
def parent? (p : Path) : Option Path :=
  match p.steps.getLast? with
  | none => none
  | some .root => none
  | some _ =>
    let rest := dropEmptyEnd p.text.toList.reverse
    let front := rest.dropWhile (· ≠ '/')
    let trimmed := (dropEmptyEnd front).reverse
    some ⟨String.ofList (if trimmed = [] ∧ front ≠ [] then ['/'] else trimmed)⟩

end Path
end PluginDescriptor
