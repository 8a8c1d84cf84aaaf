import PluginDescriptor.Annotation.Fields
import PluginDescriptor.Declaration

namespace PluginDescriptor

/-- The number by which a scanner knows a declaration. -/
abbrev Handle : Type := Nat

/-- Access to the declarations of a program, which need not be a snapshot: nothing is assumed about which
handles are found, how often, or whether they can be looked up. -/
structure Scanner where
  /-- The declarations that carry an annotation with this marker. -/
  scan : Marker → List Handle
  declaration : Handle → Option Declaration

namespace Declaration

/-- The annotations with this marker that one annotation stands for: itself, or what it holds if it
is the marker's container. -/
def instancesIn (marker : Marker) (a : Annotation) : Except Fault (List Annotation) :=
  if a.marker = marker then .ok [a]
  else if marker.container? = some a.marker then a.records "value" marker
  else .ok []

/-- All annotations with this marker, in the order of the declaration's annotations. -/
def instances (d : Declaration) (marker : Marker) : Except Fault (List Annotation) :=
  (d.annotations.mapM (instancesIn marker)).map List.flatten

end Declaration

namespace Scanner

/-- The first annotation of a declaration with this marker. -/
def firstInstance? (s : Scanner) (h : Handle) (marker : Marker) : Option Annotation :=
  match s.declaration h with
  | none => none
  | some d => d.annotations.find? (·.marker == marker)

/-- A field of the first annotation with this marker. -/
def field? (s : Scanner) (h : Handle) (marker : Marker) (name : String) : Option AnnotationValue :=
  match s.firstInstance? h marker with
  | none => none
  | some a => a.field? name

/-- All annotations of a declaration with this marker; an unknown declaration has none. -/
def instances (s : Scanner) (h : Handle) (marker : Marker) : Except Fault (List Annotation) :=
  match s.declaration h with
  | none => .ok []
  | some d => d.instances marker

end Scanner

namespace Snapshot

/-- The positions, counted from `start`, of the declarations with this marker. -/
def positions (marker : Marker) : (start : Nat) → List Declaration → List Handle
  | _, [] => []
  | n, d :: r =>
    if d.hasMarker marker then n :: positions marker (n + 1) r else positions marker (n + 1) r

/-- A snapshot as a scanner: a handle is the position of a declaration. -/
def scanner (s : Snapshot) : Scanner where
  scan marker := positions marker 0 s.declarations
  declaration h := s.declarations[h]?

end Snapshot
end PluginDescriptor
