import PluginDescriptor.Json.Basic
import PluginDescriptor.Marker

namespace PluginDescriptor

/-- Why a declaration cannot be the entry point of a plugin. -/
inductive Violation where
  | notAClass
  | notTopLevel
  | staticNested
  | isAbstract
  deriving DecidableEq, Repr

def Violation.rule : Violation → String
  | notAClass => "is not a class"
  | notTopLevel => "is not a top-level class"
  | staticNested => "cannot be static nested"
  | isAbstract => "cannot be abstract"

/-- The causes for which a build stops. -/
inductive Fault where
  | multipleEntryPoints (count : Nat)
  | invalidEntryPoint (name : String) (violation : Violation)
  | invalidCommandExecutor (name : String)
  | invalidPermissionHolder (name : String)
  | missingField (marker : Marker) (field : String)
  /-- `shown` is the offending value as the message quotes it. -/
  | invalidValue (marker : Marker) (field shown : String)
  | unknownDeclaration (handle : Nat)
  | unreadableSnapshot (why : Json.Fault)
  | fileAccess
  deriving DecidableEq, Repr

namespace Fault

def message : Fault → String
  | multipleEntryPoints n => "Found more than one plugin main class (" ++ toString n ++ " candidates)"
  | invalidEntryPoint name v => "Main plugin class " ++ v.rule ++ ": " ++ name
  | invalidCommandExecutor _ => "Specified Command Executor class is not a class."
  | invalidPermissionHolder _ => "Specified Permission holder class is not a class."
  | missingField m field => m.name ++ " is missing required field '" ++ field ++ "'"
  | invalidValue m field shown => "Invalid value for " ++ m.name ++ "." ++ field ++ ": " ++ shown
  | unknownDeclaration h => "Scanner returned an unknown declaration handle: " ++ toString h
  | unreadableSnapshot _ => "Failed to parse declaration snapshot"
  | fileAccess => "IO error"

/-- The declaration that the user is pointed to. -/
def origin? : Fault → Option String
  | invalidEntryPoint name _ => some name
  | _ => none

end Fault
end PluginDescriptor
