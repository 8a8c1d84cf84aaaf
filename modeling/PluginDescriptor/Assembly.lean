import PluginDescriptor.Metadata
import PluginDescriptor.Registry

namespace PluginDescriptor

namespace EntryPoint

/-- The first rule that a declaration breaks as an entry point. -/
def violation? (d : Declaration) : Option Violation :=
  if !d.kind.isClass then some .notAClass
  else if !d.isTopLevel then some .notTopLevel
  else if d.hasModifier .static then some .staticNested
  else if d.hasModifier .abstract then some .isAbstract
  else none

/-- Chooses the entry point among candidates; without candidates there is none. -/
def choose (s : Scanner) : List Handle → Except Fault (Option Handle)
  | [] => .ok none
  | [h] =>
    match s.declaration h with
    | none => .error (.unknownDeclaration h)
    | some d =>
      match violation? d with
      | some v => .error (.invalidEntryPoint d.qualifiedName v)
      | none => .ok (some h)
  | candidates => .error (.multipleEntryPoints candidates.length)

end EntryPoint

/-- A registry under its key of the descriptor. -/
def Registry.part (r : Registry) (key : String) (s : Scanner) (entry : Handle) : Part := do
  return some (key, .ofMap (← r.merge s entry))

/-- Every part of the descriptor, in its order. -/
def Source.parts (s : Source) : List Part :=
  s.metadata ++
    [Registry.commands.part "commands" s.scanner s.entry,
      Registry.permissions.part "permissions" s.scanner s.entry,
      s.apiVersionPart]

/-- The descriptor of the program that a scanner shows; a program without entry point has none. -/
def assemble (s : Scanner) (defaultVersion : String) : Except Fault (Option Document) :=
  match EntryPoint.choose s (s.scan .plugin) with
  | .error e => .error e
  | .ok none => .ok none
  | .ok (some entry) =>
    match s.declaration entry with
    | none => .error (.unknownDeclaration entry)
    | some declaration =>
      match Document.fill ∅ (Source.parts ⟨s, entry, declaration, defaultVersion⟩) with
      | (d, none) => .ok (some d)
      | (_, some e) => .error e

/-- A message and the declaration it is about. -/
structure Diagnostic where
  message : String
  origin : Option String := none
  deriving DecidableEq, Repr

/-- A fault as it is reported. -/
def Fault.diagnostic (e : Fault) : Diagnostic := ⟨e.message, e.origin?⟩

/-- Adds a fault to what was reported, if the result is one. -/
def report {α : Type} (reported : List Diagnostic) (result : Except Fault α) : List Diagnostic :=
  match result with
  | .ok _ => reported
  | .error e => reported ++ [e.diagnostic]

/-- Assembles a descriptor and reports why it could not be done. -/
def assembleReporting (s : Scanner) (defaultVersion : String) (reported : List Diagnostic) :
    Except Fault (Option Document) × List Diagnostic :=
  let result := assemble s defaultVersion
  (result, report reported result)

end PluginDescriptor
