import PluginDescriptor.Annotation.Json
import PluginDescriptor.Declaration

namespace PluginDescriptor

open Json Json.Reader

def Kind.options : List (String × Kind) := Kind.all.map fun k => (k.name, k)

def Modifier.options : List (String × Modifier) := Modifier.all.map fun m => (m.name, m)

namespace Enclosing

/-- The two kinds of enclosing element by their keys. -/
def options : List (String × (String → Enclosing)) := [("package", .package), ("type", .type)]

/-- An object with the kind as its only key and the name as the value. -/
def reader (depth : Nat) : Reader Enclosing := do
  let c ← peek
  if c = '"' then
    skip
    let _ ← pick options (← stringRest)
    mismatch (.kind .bareVariant "newtype variant")
  else if c = '\x7b' then
    let _ ← deeper depth
    skip
    let make ← pick options (← onlyKey)
    expect ':'
    let name ← string "a string"
    expect '\x7d'
    return make name
  else fail .malformed

def toJson : Enclosing → Json
  | .package name => .object [("package", .str name)]
  | .type name => .object [("type", .str name)]

end Enclosing

namespace Declaration

structure Draft where
  qualifiedName : Option String := none
  kind : Option Kind := none
  enclosing : Option Enclosing := none
  modifiers : Option (List Modifier) := none
  annotations : Option (List Annotation) := none

def modifiersReader (depth : Nat) : Reader (List Modifier) :=
  array depth fun depth => choice depth Modifier.options

def annotationsReader (depth : Nat) : Reader (List Annotation) := array depth Annotation.reader

/-- A part that may occur only once. -/
def once {α σ : Type} (key : String) (known : Option α) (read : Reader σ) :
    Except Json.Fault (Reader σ) :=
  if known.isSome then .error (.unsuitable (.duplicate key)) else .ok read

/-- How the member with this key is read. -/
def memberReader (depth : Nat) (draft : Draft) (key : String) :
    Except Json.Fault (Reader Draft) :=
  if key = "qualified_name" then
    once key draft.qualifiedName do
      return { draft with qualifiedName := some (← string "a string") }
  else if key = "kind" then
    once key draft.kind do return { draft with kind := some (← choice depth Kind.options) }
  else if key = "enclosing" then
    once key draft.enclosing do return { draft with enclosing := some (← Enclosing.reader depth) }
  else if key = "modifiers" then
    once key draft.modifiers do return { draft with modifiers := some (← modifiersReader depth) }
  else if key = "annotations" then
    once key draft.annotations do
      return { draft with annotations := some (← annotationsReader depth) }
  else .ok do
    Skip.value
    return draft

/-- The declaration of a finished draft; the first part that is missing is reported. -/
def Draft.finish (draft : Draft) : Reader Declaration := do
  let some qualifiedName := draft.qualifiedName | mismatch (.missing "qualified_name")
  let some kind := draft.kind | mismatch (.missing "kind")
  let some enclosing := draft.enclosing | mismatch (.missing "enclosing")
  return { qualifiedName, kind, enclosing,
           modifiers := draft.modifiers.getD [], annotations := draft.annotations.getD [] }

def reader (depth : Nat) : Reader Declaration := do
  let c ← peek
  let parts := "struct Declaration with 5 elements"
  if c = '[' then
    let depth ← deeper depth
    skip
    let some qualifiedName ← element? true (string "a string") | mismatch (.count 0 parts)
    let some kind ← element? false (choice depth Kind.options) | mismatch (.count 1 parts)
    let some enclosing ← element? false (Enclosing.reader depth) | mismatch (.count 2 parts)
    let modifiers ← element? false (modifiersReader depth)
    let annotations ← element? false (annotationsReader depth)
    expect ']'
    return { qualifiedName, kind, enclosing,
             modifiers := modifiers.getD [], annotations := annotations.getD [] }
  else if c = '\x7b' then
    let depth ← deeper depth
    skip
    (← members (memberReader depth) {}).finish
  else reject "struct Declaration"

def toJson (d : Declaration) : Json :=
  .object
    [("qualified_name", .str d.qualifiedName), ("kind", .str d.kind.name),
      ("enclosing", d.enclosing.toJson), ("modifiers", .array (d.modifiers.map (.str ·.name))),
      ("annotations", .array (d.annotations.map Annotation.toJson))]

end Declaration

namespace Snapshot

def declarationsReader (depth : Nat) : Reader (List Declaration) := array depth Declaration.reader

/-- How the member with this key is read. -/
def memberReader (depth : Nat) (known : Option (List Declaration)) (key : String) :
    Except Json.Fault (Reader (Option (List Declaration))) :=
  if key = "declarations" then
    Declaration.once key known (some <$> declarationsReader depth)
  else .ok do
    Skip.value
    return known

def reader (depth : Nat) : Reader Snapshot := do
  let c ← peek
  if c = '[' then
    let depth ← deeper depth
    skip
    let declarations ← element? true (declarationsReader depth)
    expect ']'
    return ⟨declarations.getD []⟩
  else if c = '\x7b' then
    let depth ← deeper depth
    skip
    return ⟨(← members (memberReader depth) none).getD []⟩
  else reject "struct DeclarationSnapshot"

def ofText (text : String) : Except Json.Fault Snapshot := (reader maxDepth).run text

def toJson (s : Snapshot) : Json :=
  .object [("declarations", .array (s.declarations.map Declaration.toJson))]

def compact (s : Snapshot) : String := s.toJson.compact

end Snapshot
end PluginDescriptor
