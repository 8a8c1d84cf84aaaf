import PluginDescriptor.Annotation.Json
import PluginDescriptor.Fault

namespace PluginDescriptor.Annotation

def field? (a : Annotation) (name : String) : Option AnnotationValue := Entries.find? name a.fields

/-- The annotation with one more field, or another value for a field that it has. -/
def setField (a : Annotation) (name : String) (v : AnnotationValue) : Annotation :=
  { a with fields := Entries.put name v a.fields }

/-- The fault of a value that a field cannot have; it is quoted as JSON. -/
def invalid (a : Annotation) (name : String) (v : AnnotationValue) : Fault :=
  .invalidValue a.marker name v.compact

def text? (a : Annotation) (name : String) : Except Fault (Option String) :=
  match a.field? name with
  | none => .ok none
  | some (.str s) => .ok (some s)
  | some v => .error (a.invalid name v)

/-- A text that has to be there. -/
def requiredText (a : Annotation) (name : String) : Except Fault String :=
  match a.text? name with
  | .error e => .error e
  | .ok none => .error (.missingField a.marker name)
  | .ok (some s) => .ok s

def flag? (a : Annotation) (name : String) : Except Fault (Option Bool) :=
  match a.field? name with
  | none => .ok none
  | some (.bool b) => .ok (some b)
  | some v => .error (a.invalid name v)

def textItem (a : Annotation) (name : String) : AnnotationValue → Except Fault String
  | .str s => .ok s
  | v => .error (a.invalid name v)

def texts (a : Annotation) (name : String) : Except Fault (List String) :=
  match a.field? name with
  | none => .ok []
  | some (.str s) => .ok [s]
  | some (.array items) => items.mapM (a.textItem name)
  | some v => .error (a.invalid name v)

/-- The item as an annotation with this marker. -/
def recordItem (a : Annotation) (name : String) (marker : Marker) :
    AnnotationValue → Except Fault Annotation
  | .nested m fields =>
    if m = marker then .ok ⟨m, fields⟩ else .error (a.invalid name (.nested m fields))
  | v => .error (a.invalid name v)

/-- Any number of annotations with this marker. -/
def records (a : Annotation) (name : String) (marker : Marker) : Except Fault (List Annotation) :=
  match a.field? name with
  | none => .ok []
  | some (.array items) => items.mapM (a.recordItem name marker)
  | some v => (a.recordItem name marker v).map ([·])

end PluginDescriptor.Annotation
