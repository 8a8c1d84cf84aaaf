import PluginDescriptor.Annotation
import PluginDescriptor.Entries
import PluginDescriptor.Json.Basic
import PluginDescriptor.Json.Skip

namespace PluginDescriptor

namespace Marker

def options : List (String × Marker) := all.map fun m => (m.name, m)

def ofJson? : Json → Option Marker
  | .str s => options.lookup s
  | .object [(s, .null)] => options.lookup s
  | _ => none

end Marker

namespace AnnotationValue

mutual

/-- The first of flag, text, array and annotation that a JSON value can be taken for. -/
def ofJson? : Json → Option AnnotationValue
  | .null => none
  | .number _ => none
  | .bool b => some (.bool b)
  | .str s => some (.str s)
  | .array items =>
    match ofItems? items with
    | some values => some (.array values)
    | none => ofParts? items
  | .object members =>
    match ofMembers? members with
    | some (some m, fields) => some (.nested m (fields.getD []))
    | _ => none

/-- The annotation whose marker and fields are the items of an array. -/
def ofParts? : List Json → Option AnnotationValue
  | [marker] => (Marker.ofJson? marker).map fun m => .nested m []
  | [marker, fields] =>
    match Marker.ofJson? marker, ofMap? fields with
    | some m, some fs => some (.nested m fs)
    | _, _ => none
  | _ => none

/-- The items of an array, all of them values. -/
def ofItems? : List Json → Option (List AnnotationValue)
  | [] => some []
  | v :: r =>
    match ofJson? v with
    | none => none
    | some a => (ofItems? r).map (a :: ·)

/-- The fields that an object gives; the later of two with one name counts. -/
def ofMap? : Json → Option (List (String × AnnotationValue))
  | .object fields => (ofFields? fields).map Entries.collapse
  | _ => none

/-- The entries of an object, all of them values. -/
def ofFields? : List (String × Json) → Option (List (String × AnnotationValue))
  | [] => some []
  | (k, v) :: r =>
    match ofJson? v with
    | none => none
    | some a => (ofFields? r).map ((k, a) :: ·)

/-- The marker and the fields among the members of an object, neither of them twice. -/
def ofMembers? : List (String × Json) →
    Option (Option Marker × Option (List (String × AnnotationValue)))
  | [] => some (none, none)
  | (k, v) :: r =>
    match ofMembers? r with
    | none => none
    | some (marker, fields) =>
      if k = "marker" then
        match marker, Marker.ofJson? v with
        | none, some m => some (some m, fields)
        | _, _ => none
      else if k = "fields" then
        match fields, ofMap? v with
        | none, some fs => some (marker, some fs)
        | _, _ => none
      else some (marker, fields)

end

mutual

def toJson : AnnotationValue → Json
  | .bool b => .bool b
  | .str s => .str s
  | .array items => .array (itemsToJson items)
  | .nested m fields =>
    .object [("marker", .str m.name), ("fields", .object (fieldsToJson fields))]

def itemsToJson : List AnnotationValue → List Json
  | [] => []
  | v :: r => v.toJson :: itemsToJson r

def fieldsToJson : List (String × AnnotationValue) → List (String × Json)
  | [] => []
  | (k, v) :: r => (k, v.toJson) :: fieldsToJson r

end

/-- The JSON text of a value, as messages quote it. -/
def compact (v : AnnotationValue) : String := v.toJson.compact

/-- Reads the value of a field. The JSON value is read to its end before it is looked at. -/
def reader (depth : Nat) : Json.Reader AnnotationValue := do
  match ofJson? (← Json.Reader.tree depth) with
  | some v => pure v
  | none => Json.Reader.mismatch (.noAlternative "AnnotationValue")

end AnnotationValue

namespace Annotation

def toJson (a : Annotation) : Json := a.toValue.toJson

def compact (a : Annotation) : String := a.toJson.compact

structure Draft where
  marker : Option Marker := none
  fields : Option (List (String × AnnotationValue)) := none

open Json Json.Reader

/-- The fields of an annotation; the later of two fields with one name counts. -/
def fieldsReader (depth : Nat) : Reader (List (String × AnnotationValue)) := do
  if (← peek) = '\x7b' then
    let depth ← deeper depth
    skip
    members (fun fields name => .ok do return Entries.put name (← AnnotationValue.reader depth) fields) []
  else reject "a map"

/-- How the member with this key is read. -/
def memberReader (depth : Nat) (draft : Draft) (key : String) : Except Json.Fault (Reader Draft) :=
  if key = "marker" then
    if draft.marker.isSome then .error (.unsuitable (.duplicate key))
    else .ok do return { draft with marker := some (← choice depth Marker.options) }
  else if key = "fields" then
    if draft.fields.isSome then .error (.unsuitable (.duplicate key))
    else .ok do return { draft with fields := some (← fieldsReader depth) }
  else .ok do
    Skip.value
    return draft

def reader (depth : Nat) : Reader Annotation := do
  let c ← peek
  if c = '[' then
    let depth ← deeper depth
    skip
    let some marker ← element? true (choice depth Marker.options)
      | mismatch (.count 0 "struct AnnotationRecord with 2 elements")
    let fields ← element? false (fieldsReader depth)
    expect ']'
    return ⟨marker, fields.getD []⟩
  else if c = '\x7b' then
    let depth ← deeper depth
    skip
    let draft ← members (memberReader depth) {}
    let some marker := draft.marker | mismatch (.missing "marker")
    return ⟨marker, draft.fields.getD []⟩
  else reject "struct AnnotationRecord"

def ofText (text : String) : Except Json.Fault Annotation := (reader maxDepth).run text

end Annotation
end PluginDescriptor
