import PluginDescriptor.Document
import PluginDescriptor.Scanner

namespace PluginDescriptor

/-- A command as it is declared. A text that is not set is empty. -/
structure Command where
  name : String
  aliases : List String := []
  description : String := ""
  permission : String := ""
  permissionMessage : String := ""
  usage : String := ""
  deriving DecidableEq, Repr

/-- Writes a text under a key unless the text is empty. -/
def Document.putText (d : Document) (key text : String) : Document :=
  if text = "" then d else d.insert key (.str text)

namespace Command

def ofAnnotation (a : Annotation) : Except Fault Command := do
  let name ← a.requiredText "name"
  let aliases ← a.texts "aliases"
  let description ← a.text? "desc"
  let permission ← a.text? "permission"
  let permissionMessage ← a.text? "permissionMessage"
  let usage ← a.text? "usage"
  return { name, aliases, description := description.getD "", permission := permission.getD "",
           permissionMessage := permissionMessage.getD "", usage := usage.getD "" }

/-- Aliases as a descriptor shows them: one stands by itself, several form a list. -/
def aliasesValue : List String → Option Value
  | [] => none
  | [a] => some (.str a)
  | several => some (.list several)

def entry (c : Command) : Document :=
  let start : Document :=
    match aliasesValue c.aliases with
    | none => ∅
    | some v => OrderedMap.empty.insert "aliases" v
  (((start.putText "description" c.description).putText "permission" c.permission).putText
    "permission-message" c.permissionMessage).putText "usage" c.usage

end Command

/-- Who has a permission that nobody granted or refused. -/
inductive PermissionDefault where
  | everyone
  | nobody
  | operators
  | others
  deriving DecidableEq, Repr

namespace PermissionDefault

def name : PermissionDefault → String
  | everyone => "true"
  | nobody => "false"
  | operators => "op"
  | others => "!op"

/-- The ASCII letters and exclamation marks of a text, in lower case. -/
def normalize (s : String) : String :=
  String.ofList ((s.toList.filter fun c => c.isAlpha || c == '!').map Char.toLower)

/-- The default that a text names; only its letters and exclamation marks count. -/
def ofText? (s : String) : Option PermissionDefault :=
  [("true", everyone), ("false", nobody), ("op", operators), ("!op", others),
    ("notop", others)].lookup (normalize s)

/-- What is said of a text that names no default. -/
def unknown (s : String) : String := "unknown permission default: " ++ s

end PermissionDefault

/-- A permission that another one grants, or refuses if it is not inherited. -/
structure ChildPermission where
  name : String
  inherit : Bool := true
  deriving DecidableEq, Repr

structure Permission where
  name : String
  description : String := ""
  default : PermissionDefault := .operators
  children : List ChildPermission := []
  deriving DecidableEq, Repr

def ChildPermission.ofAnnotation (a : Annotation) : Except Fault ChildPermission := do
  let name ← a.requiredText "name"
  let inherit ← a.flag? "inherit"
  return { name, inherit := inherit.getD true }

namespace Permission

/-- The default of a permission; operators have it if nothing is said. -/
def defaultOf (a : Annotation) : Except Fault PermissionDefault := do
  match ← a.text? "defaultValue" with
  | none => return .operators
  | some text =>
    match PermissionDefault.ofText? text with
    | some d => return d
    | none => throw (.invalidValue a.marker "defaultValue" text)

def ofAnnotation (a : Annotation) : Except Fault Permission := do
  let default ← defaultOf a
  let children ← (← a.records "children" .childPermission).mapM ChildPermission.ofAnnotation
  let name ← a.requiredText "name"
  let description ← a.text? "desc"
  return { name, description := description.getD "", default, children }

/-- The children as a map; of two with one name the later counts. -/
def childMap (children : List ChildPermission) : Document :=
  OrderedMap.ofList (children.map fun c => (c.name, .bool c.inherit))

/-- What a descriptor says of the permission. The usual default is left out. -/
def entry (p : Permission) : Document :=
  let described := (∅ : Document).putText "description" p.description
  let defaulted :=
    if p.default = .operators then described else described.insert "default" (.str p.default.name)
  if p.children.isEmpty then defaulted
  else defaulted.insert "children" (.ofMap (childMap p.children))

end Permission

/-- What is collected: how it is marked and what a descriptor says of it. -/
structure Registry where
  single : Marker
  container : Marker
  /-- The fault of a declaration that holds some and is not a type. -/
  notAType : String → Fault
  /-- The name of one item and its entry in the descriptor. -/
  item : Annotation → Except Fault (String × Value)

namespace Registry

def commands : Registry where
  single := .command
  container := .commands
  notAType := .invalidCommandExecutor
  item a := do
    let c ← Command.ofAnnotation a
    return (c.name, .ofMap c.entry)

def permissions : Registry where
  single := .permission
  container := .permissions
  notAType := .invalidPermissionHolder
  item a := do
    let p ← Permission.ofAnnotation a
    return (p.name, .ofMap p.entry)

/-- Puts a handle in its place in an ascending list, unless it is there. -/
def insertAscending (h : Handle) : List Handle → List Handle
  | [] => [h]
  | g :: r =>
    if h < g then h :: g :: r
    else if h = g then g :: r
    else g :: insertAscending h r

/-- The handles in ascending order, each of them once. -/
def ascending (l : List Handle) : List Handle := l.foldr insertAscending []

/-- All declarations that hold items, which have to be types. -/
def checkedHolders (r : Registry) (s : Scanner) : Except Fault (List Handle) :=
  (ascending (s.scan r.container ++ s.scan r.single)).mapM fun h =>
    match s.declaration h with
    | none => .error (.unknownDeclaration h)
    | some d => if d.kind.isType then .ok h else .error (r.notAType d.qualifiedName)

def itemsOf (r : Registry) (s : Scanner) (h : Handle) : Except Fault Document := do
  let entries ← (← s.instances h r.single).mapM r.item
  return .ofList entries

/-- The items of all declarations, the entry point's last. -/
def merge (r : Registry) (s : Scanner) (entry : Handle) : Except Fault Document := do
  let others := (← r.checkedHolders s).filter (· != entry)
  (others ++ [entry]).foldlM (fun merged h => do return merged.extend (← r.itemsOf s h)) ∅

end Registry

end PluginDescriptor
