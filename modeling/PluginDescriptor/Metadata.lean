import PluginDescriptor.Document
import PluginDescriptor.Scanner

namespace PluginDescriptor

/-- When a server loads a plugin. -/
inductive LoadOrder where
  | startup
  | postWorld
  deriving DecidableEq, Repr

namespace LoadOrder

def name : LoadOrder → String
  | startup => "STARTUP"
  | postWorld => "POSTWORLD"

/-- A text with its ASCII letters in upper case. -/
def upper (s : String) : String := String.ofList (s.toList.map Char.toUpper)

/-- The order of this name, in letters of either case. -/
def ofText? (s : String) : Option LoadOrder :=
  [startup, postWorld].find? (·.name == upper s)

def unknown (s : String) : String := "unknown load order: " ++ upper s

end LoadOrder

namespace ApiVersion

/-- The word `default`, in letters of either case. -/
def isDefault (cs : List Char) : Bool := cs.map Char.toLower == "default".toList

/-- The version in a target: without a leading `v`, which also turns underscores into points. -/
def normalize : List Char → List Char
  | [] => []
  | c :: r => if c = 'v' ∨ c = 'V' then r.map fun d => if d = '_' then '.' else d else c :: r

/-- The groups between the points; there is always at least one. -/
def groups : List Char → List (List Char)
  | [] => [[]]
  | c :: r =>
    match groups r with
    | [] => [[c]]
    | g :: gs => if c = '.' then [] :: g :: gs else (c :: g) :: gs

/-- Groups of ASCII digits with single points between them. -/
def isVersion (cs : List Char) : Bool :=
  (groups cs).all fun g => !g.isEmpty && g.all Char.isDigit

/-- The version that a target asks for; `none` is the default. A target is `default`, a version such as
`1.20`, or a version after one `v` in which underscores may stand for points, such as `v1_20`. -/
def ofTarget (target : String) : Except Fault (Option String) :=
  let cs := Text.trimChars target.toList
  if isDefault cs then .ok none
  else if isVersion (normalize cs) then .ok (some (String.ofList (normalize cs)))
  else .error (.invalidValue .apiVersion "value" target)

end ApiVersion

/-- A key with its value, or nothing, or why it cannot be read. -/
abbrev Part : Type := Except Fault (Option (String × Value))

/-- Writes one part after the other, up to the first that cannot be read. -/
def Document.fill (d : Document) : List Part → Document × Option Fault
  | [] => (d, none)
  | .error e :: _ => (d, some e)
  | .ok none :: r => d.fill r
  | .ok (some (k, v)) :: r => Document.fill (d.insert k v) r

/-- Where metadata comes from. -/
structure Source where
  scanner : Scanner
  /-- The declaration whose annotations are read. -/
  entry : Handle
  /-- The declaration whose name is used. -/
  declaration : Declaration
  defaultVersion : String

namespace Source

/-- A text of the first annotation with this marker; a blank one counts as not set. -/
def scalar? (s : Source) (marker : Marker) (name : String) : Except Fault (Option String) :=
  match s.scanner.field? s.entry marker name with
  | none => .ok none
  | some (.str t) => if t.toList.all Text.isBlank then .ok none else .ok (some t)
  | some v => .error (.invalidValue marker name v.describe)

/-- The `value` of every annotation with this marker. -/
def values (s : Source) (marker : Marker) : Except Fault (List String) := do
  (← s.scanner.instances s.entry marker).mapM (·.requiredText "value")

/-- A text under a key, if it is set. -/
def textPart (s : Source) (key : String) (marker : Marker) : Part := do
  return (← s.scalar? marker "value").map fun t => (key, .str t)

/-- A list under a key, unless it is empty. -/
def listPart (s : Source) (key : String) (marker : Marker) : Part := do
  match ← s.values marker with
  | [] => return none
  | items => return some (key, .list items)

def namePart (s : Source) : Part := do
  let name ← s.scalar? .plugin "name"
  return some ("name", .str (name.getD s.declaration.simpleName))

def versionPart (s : Source) : Part := do
  let version ← s.scalar? .plugin "version"
  return some ("version", .str (version.getD s.defaultVersion))

def loadPart (s : Source) : Part := do
  match ← s.scalar? .loadOrder "value" with
  | none => return none
  | some t =>
    match LoadOrder.ofText? t with
    | some order => return some ("load", .str order.name)
    | none => throw (.invalidValue .loadOrder "value" t)

/-- One author stands by itself, several form a list under another key. -/
def authorPart (s : Source) : Part := do
  match ← s.values .author with
  | [] => return none
  | [a] => return some ("author", .str a)
  | several => return some ("authors", .list several)

/-- Everything up to the commands, in the order of the descriptor. -/
def metadata (s : Source) : List Part :=
  [.ok (some ("main", .str s.declaration.qualifiedName)),
    s.namePart,
    s.versionPart,
    s.textPart "description" .description,
    s.loadPart,
    s.authorPart,
    s.textPart "website" .website,
    s.textPart "prefix" .logPrefix,
    s.listPart "libraries" .library,
    s.listPart "depend" .dependency,
    s.listPart "softdepend" .softDependency,
    s.listPart "loadbefore" .loadBefore]

/-- The version of the plugin interface, unless it is the default. -/
def apiVersionPart (s : Source) : Part := do
  match ← s.scalar? .apiVersion "value" with
  | none => return none
  | some target => return (← ApiVersion.ofTarget target).map fun v => ("api-version", .str v)

end Source

end PluginDescriptor
