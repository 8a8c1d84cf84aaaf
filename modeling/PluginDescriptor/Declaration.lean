import PluginDescriptor.Annotation

namespace PluginDescriptor

inductive Kind where
  | classType | interfaceType | enumType | annotationType | recordType
  | method | field | constructor | package
  deriving DecidableEq, Repr

namespace Kind

def all : List Kind :=
  [.classType, .interfaceType, .enumType, .annotationType, .recordType,
    .method, .field, .constructor, .package]

def name : Kind → String
  | .classType => "class"
  | .interfaceType => "interface"
  | .enumType => "enum"
  | .annotationType => "annotation"
  | .recordType => "record"
  | .method => "method"
  | .field => "field"
  | .constructor => "constructor"
  | .package => "package"

/-- Classes and everything else that declares a type. -/
def isType : Kind → Bool
  | .classType | .interfaceType | .enumType | .annotationType | .recordType => true
  | _ => false

/-- A record is a class. -/
def isClass : Kind → Bool
  | .classType | .recordType => true
  | _ => false

end Kind

inductive Modifier where
  | publicAccess | protectedAccess | privateAccess | abstract | static | final
  deriving DecidableEq, Repr

namespace Modifier

def all : List Modifier :=
  [.publicAccess, .protectedAccess, .privateAccess, .abstract, .static, .final]

def name : Modifier → String
  | .publicAccess => "public"
  | .protectedAccess => "protected"
  | .privateAccess => "private"
  | .abstract => "abstract"
  | .static => "static"
  | .final => "final"

end Modifier

/-- What directly contains a declaration. -/
inductive Enclosing where
  | package (name : String)
  | type (name : String)
  deriving DecidableEq, Repr

/-- One declaration with its annotations in the order in which they are written. -/
structure Declaration where
  qualifiedName : String
  kind : Kind
  enclosing : Enclosing
  modifiers : List Modifier := []
  annotations : List Annotation := []
  deriving DecidableEq, Repr

namespace Declaration

/-- The characters after the last point of a name, or all of them if there is none. -/
def lastSegment (cs : List Char) : List Char :=
  (cs.reverse.takeWhile (· ≠ '.')).reverse

/-- The name without the names around it. -/
def simpleName (d : Declaration) : String := String.ofList (lastSegment d.qualifiedName.toList)

/-- A declaration that no type encloses. -/
def isTopLevel (d : Declaration) : Bool :=
  match d.enclosing with
  | .package _ => true
  | .type _ => false

def hasModifier (d : Declaration) (m : Modifier) : Bool := d.modifiers.contains m

/-- Whether the declaration itself carries an annotation with this marker. -/
def hasMarker (d : Declaration) (m : Marker) : Bool := d.annotations.any (·.marker == m)

end Declaration

/-- The declarations of a program in the order in which they were found. -/
structure Snapshot where
  declarations : List Declaration := []
  deriving DecidableEq, Repr

namespace Snapshot

/-- The declarations of both snapshots, those of the first before those of the second. -/
def append (s t : Snapshot) : Snapshot := ⟨s.declarations ++ t.declarations⟩

instance : Append Snapshot := ⟨append⟩

end Snapshot
end PluginDescriptor
