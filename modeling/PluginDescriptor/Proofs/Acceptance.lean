import Mathlib.Data.List.Perm.Basic
import PluginDescriptor.Artifact
import PluginDescriptor.Assembly
import PluginDescriptor.Proofs.Declared
import PluginDescriptor.Proofs.Merging

namespace PluginDescriptor

open AnnotationValue

/-- The value is a text, and unless it is blank `P` holds of it. -/
def AnnotationValue.IsBlankOr (P : String → Prop) (v : AnnotationValue) : Prop :=
  ∃ t, v = .str t ∧ (Text.IsBlankText t ∨ P t)

namespace Declaration

/-- If the field is set in the first annotation with the marker, its value is as `P` says. -/
def FirstAllows (d : Declaration) (marker : Marker) (name : String)
    (P : AnnotationValue → Prop) : Prop :=
  ∀ a, d.annotations.find? (·.marker == marker) = some a → a.Allows name P

theorem firstAllows_congr {d : Declaration} {marker : Marker} {name : String}
    {P Q : AnnotationValue → Prop} (same : ∀ v, P v ↔ Q v) :
    d.FirstAllows marker name P ↔ d.FirstAllows marker name Q := by
  simp only [FirstAllows, Annotation.Allows, same]

/-- A class that can stand by itself. -/
structure IsEntryPoint (d : Declaration) : Prop where
  kind : d.kind = .classType ∨ d.kind = .recordType
  topLevel : ∃ p, d.enclosing = .package p
  notStatic : .static ∉ d.modifiers
  notAbstract : .abstract ∉ d.modifiers

/-- What the declaration says of the plugin as a whole can be read. -/
structure HasMetadata (d : Declaration) : Prop where
  name : d.FirstAllows .plugin "name" IsText
  version : d.FirstAllows .plugin "version" IsText
  description : d.FirstAllows .description "value" IsText
  loadOrder : d.FirstAllows .loadOrder "value"
    (IsBlankOr fun t => LoadOrder.upper t = "STARTUP" ∨ LoadOrder.upper t = "POSTWORLD")
  website : d.FirstAllows .website "value" IsText
  logPrefix : d.FirstAllows .logPrefix "value" IsText
  lists : ∀ m ∈ [Marker.author, .library, .dependency, .softDependency, .loadBefore],
    ∀ a ∈ d.annotations, a.marker = m → a.Requires "value" IsText
  apiVersion : d.FirstAllows .apiVersion "value"
    (IsBlankOr fun t => ∃ version, ApiVersion.ofTarget t = .ok version)

/-- The commands and permissions on the declaration can be read, and only a type has some. -/
structure HoldsItems (d : Declaration) : Prop where
  isType : d.hasMarker .command = true ∨ d.hasMarker .commands = true ∨
    d.hasMarker .permission = true ∨ d.hasMarker .permissions = true → d.kind.isType = true
  command : ∀ a ∈ d.annotations, a.marker = .command → Command.IsDeclaredBy a
  commands : ∀ a ∈ d.annotations, a.marker = .commands →
    a.Allows "value" (IsRecords .command Command.IsDeclaredBy)
  permission : ∀ a ∈ d.annotations, a.marker = .permission → Permission.IsDeclaredBy a
  permissions : ∀ a ∈ d.annotations, a.marker = .permissions →
    a.Allows "value" (IsRecords .permission Permission.IsDeclaredBy)

end Declaration

/-- The snapshot is that of a program with one plugin, and all that is said of it can be read. -/
structure Snapshot.DescribesPlugin (s : Snapshot) : Prop where
  entry : ∃ e, s.declarations.filter (·.hasMarker .plugin) = [e] ∧ e.IsEntryPoint ∧ e.HasMetadata
  holders : ∀ d ∈ s.declarations, d.HoldsItems

namespace EntryPoint

theorem violation?_eq_none {d : Declaration} : violation? d = none ↔ d.IsEntryPoint := by
  have kind : d.kind.isClass = true ↔ d.kind = .classType ∨ d.kind = .recordType := by
    cases d.kind <;> simp [Kind.isClass]
  have topLevel : d.isTopLevel = true ↔ ∃ p, d.enclosing = .package p := by
    unfold Declaration.isTopLevel
    cases d.enclosing <;> simp
  have modified (m : Modifier) : d.hasModifier m = false ↔ m ∉ d.modifiers := by
    simp [Declaration.hasModifier]
  have checks : violation? d = none ↔ d.kind.isClass = true ∧ d.isTopLevel = true ∧
      d.hasModifier .static = false ∧ d.hasModifier .abstract = false := by
    unfold violation?
    cases d.kind.isClass <;> cases d.isTopLevel <;> cases d.hasModifier .static <;>
      cases d.hasModifier .abstract <;> simp
  rw [checks, kind, topLevel, modified, modified]
  constructor
  · rintro ⟨kind, topLevel, notStatic, notAbstract⟩
    exact { kind, topLevel, notStatic, notAbstract }
  · intro d
    exact ⟨d.kind, d.topLevel, d.notStatic, d.notAbstract⟩

theorem choose_eq_none {s : Scanner} {candidates : List Handle} :
    choose s candidates = .ok none ↔ candidates = [] := by
  match candidates with
  | [] => simp [choose]
  | [h] =>
    simp only [choose]
    cases s.declaration h with
    | none => simp
    | some d => cases violated : violation? d <;> simp [violated]
  | _ :: _ :: _ => simp [choose]

theorem choose_eq_some {s : Scanner} {candidates : List Handle} {h : Handle} :
    choose s candidates = .ok (some h) ↔
      candidates = [h] ∧ ∃ d, s.declaration h = some d ∧ d.IsEntryPoint := by
  match candidates with
  | [] => simp [choose]
  | [g] =>
    have single : choose s [g] = .ok (some h) ↔
        g = h ∧ ∃ d, s.declaration g = some d ∧ violation? d = none := by
      simp only [choose]
      cases s.declaration g with
      | none => simp
      | some d => cases violated : violation? d <;> simp [violated]
    rw [single, List.cons.injEq]
    simp only [violation?_eq_none, and_true]
    exact ⟨fun ⟨same, fit⟩ => ⟨same, same ▸ fit⟩, fun ⟨same, fit⟩ => ⟨same, same ▸ fit⟩⟩
  | _ :: _ :: _ => simp [choose]

end EntryPoint

namespace Source

variable {s : Source}

theorem scalar?_eq (s : Source) (marker : Marker) (name : String) :
    s.scalar? marker name =
      match (s.scanner.firstInstance? s.entry marker).bind (·.field? name) with
      | none => .ok none
      | some (.str t) => if t.toList.all Text.isBlank then .ok none else .ok (some t)
      | some v => .error (.invalidValue marker name v.describe) := by
  unfold scalar? Scanner.field?
  cases s.scanner.firstInstance? s.entry marker <;> rfl

/-- What depends on a scalar that need not be set can be read if the scalar is not set, blank, or a text
with which it can be read. -/
theorem succeeds_scalar?_bind {α : Type} {marker : Marker} {name : String}
    {f : Option String → Except Fault α} (unset : Succeeds (f none)) {d : Declaration}
    (found : s.scanner.declaration s.entry = some d) :
    Succeeds (s.scalar? marker name >>= f) ↔
      d.FirstAllows marker name (IsBlankOr fun t => Succeeds (f (some t))) := by
  have first : s.scanner.firstInstance? s.entry marker =
      d.annotations.find? (·.marker == marker) := by
    rw [Scanner.firstInstance?, found]
  rw [scalar?_eq, first]
  unfold Declaration.FirstAllows Annotation.Allows IsBlankOr
  cases d.annotations.find? (·.marker == marker) with
  | none => simp [succeeds_bind, unset]
  | some a =>
    cases set : a.field? name with
    | none => simp [succeeds_bind, unset, set]
    | some v =>
      cases v with
      | str t =>
        have blank : t.toList.all Text.isBlank = true ↔ Text.IsBlankText t := List.all_eq_true
        by_cases h : Text.IsBlankText t
        · simp [succeeds_bind, unset, set, blank.2 h, h]
        · have visible := mt blank.1 h
          simp only [Option.bind_some, set, visible]
          simp [succeeds_bind, set, h]
      | bool | array | nested => simp [succeeds_bind, set]

theorem succeeds_scalar?_of_total {α : Type} {marker : Marker} {name : String}
    {f : Option String → Except Fault α} (total : ∀ o, Succeeds (f o)) {d : Declaration}
    (found : s.scanner.declaration s.entry = some d) :
    Succeeds (s.scalar? marker name >>= f) ↔ d.FirstAllows marker name IsText := by
  refine (succeeds_scalar?_bind (total none) found).trans (Declaration.firstAllows_congr fun v => ?_)
  simp [total, IsBlankOr, IsText]

theorem succeeds_loadPart {d : Declaration} (found : s.scanner.declaration s.entry = some d) :
    Succeeds s.loadPart ↔ d.FirstAllows .loadOrder "value"
      (IsBlankOr fun t => LoadOrder.upper t = "STARTUP" ∨ LoadOrder.upper t = "POSTWORLD") := by
  have named (t : String) : (∃ order, LoadOrder.ofText? t = some order) ↔
      LoadOrder.upper t = "STARTUP" ∨ LoadOrder.upper t = "POSTWORLD" := by
    unfold LoadOrder.ofText?
    rw [← Option.isSome_iff_exists, List.find?_isSome, eq_comm, @eq_comm _ _ "POSTWORLD"]
    simp [LoadOrder.name]
  unfold loadPart
  rw [succeeds_scalar?_bind ?unset found]
  case unset => exact succeeds_pure _
  refine Declaration.firstAllows_congr fun v => ?_
  simp only [IsBlankOr, ← named]
  refine exists_congr fun t => and_congr_right fun _ => or_congr_right ?_
  cases LoadOrder.ofText? t with
  | none => simp [throw, throwThe, MonadExceptOf.throw]
  | some order => simp

theorem succeeds_apiVersionPart {d : Declaration}
    (found : s.scanner.declaration s.entry = some d) :
    Succeeds s.apiVersionPart ↔ d.FirstAllows .apiVersion "value"
      (IsBlankOr fun t => ∃ version, ApiVersion.ofTarget t = .ok version) := by
  unfold apiVersionPart
  rw [succeeds_scalar?_bind ?unset found]
  case unset => exact succeeds_pure _
  refine Declaration.firstAllows_congr fun v => ?_
  refine exists_congr fun t => and_congr_right fun _ => or_congr_right ?_
  exact succeeds_bind_of_total fun _ => succeeds_pure _

theorem succeeds_values_bind {α : Type} {marker : Marker} {f : List String → Except Fault α}
    (total : ∀ l, Succeeds (f l)) (bare : marker.container? = none) {d : Declaration}
    (found : s.scanner.declaration s.entry = some d) :
    Succeeds (s.values marker >>= f) ↔
      ∀ a ∈ d.annotations, a.marker = marker → a.Requires "value" IsText := by
  have read : s.values marker =
      (d.instances marker >>= fun l => l.mapM (·.requiredText "value")) := by
    unfold values Scanner.instances
    rw [found]
  rw [succeeds_bind_of_total total, read]
  simp only [Succeeds, Declaration.instances_mapM_eq_ok, exists_readAs]
  rw [Declaration.forall_records]
  refine forall₂_congr fun a _ => ?_
  rw [bare]
  simp only [reduceCtorEq, false_implies, and_true]
  exact forall_congr' fun _ => Annotation.succeeds_requiredText

theorem succeeds_metadata {d : Declaration} (found : s.scanner.declaration s.entry = some d) :
    (∀ p ∈ s.metadata, Succeeds p) ∧ Succeeds s.apiVersionPart ↔ d.HasMetadata := by
  have name : Succeeds s.namePart ↔ d.FirstAllows .plugin "name" IsText :=
    succeeds_scalar?_of_total (fun _ => succeeds_pure _) found
  have version : Succeeds s.versionPart ↔ d.FirstAllows .plugin "version" IsText :=
    succeeds_scalar?_of_total (fun _ => succeeds_pure _) found
  have text (key : String) (m : Marker) :
      Succeeds (s.textPart key m) ↔ d.FirstAllows m "value" IsText :=
    succeeds_scalar?_of_total (fun _ => succeeds_pure _) found
  have author : Succeeds s.authorPart ↔
      ∀ a ∈ d.annotations, a.marker = .author → a.Requires "value" IsText :=
    succeeds_values_bind (fun l => by rcases l with _ | ⟨_, _ | _⟩ <;> exact succeeds_pure _) rfl
      found
  have list (key : String) (m : Marker) (bare : m.container? = none) :
      Succeeds (s.listPart key m) ↔
        ∀ a ∈ d.annotations, a.marker = m → a.Requires "value" IsText :=
    succeeds_values_bind (fun l => by cases l <;> exact succeeds_pure _) bare found
  simp only [metadata, List.forall_mem_cons, List.not_mem_nil, false_implies, implies_true, and_true,
    succeeds_ok, true_and, name, version, text, author, list _ .library rfl,
    list _ .dependency rfl, list _ .softDependency rfl, list _ .loadBefore rfl,
    succeeds_loadPart found, succeeds_apiVersionPart found]
  constructor
  · rintro ⟨⟨name, version, description, loadOrder, author, website, logPrefix, library, dependency,
      softDependency, loadBefore⟩, apiVersion⟩
    refine { name, version, description, loadOrder, website, logPrefix, apiVersion, lists := ?_ }
    simp only [List.forall_mem_cons, List.not_mem_nil, false_implies, implies_true, and_true]
    exact ⟨author, library, dependency, softDependency, loadBefore⟩
  · intro m
    have lists := m.lists
    simp only [List.forall_mem_cons, List.not_mem_nil, false_implies, implies_true, and_true] at lists
    obtain ⟨author, library, dependency, softDependency, loadBefore⟩ := lists
    exact ⟨⟨m.name, m.version, m.description, m.loadOrder, author, m.website, m.logPrefix, library,
      dependency, softDependency, loadBefore⟩, m.apiVersion⟩

end Source

namespace Registry

theorem succeeds_checkedHolders {r : Registry} {s : Snapshot} :
    Succeeds (r.checkedHolders s.scanner) ↔ ∀ d ∈ s.declarations,
      (d.hasMarker r.container = true ∨ d.hasMarker r.single = true) → d.kind.isType = true := by
  unfold checkedHolders
  rw [succeeds_mapM]
  simp only [mem_ascending, List.mem_append, Snapshot.mem_scan]
  constructor
  · intro checked d member held
    obtain ⟨h, at_⟩ := List.mem_iff_getElem?.1 member
    have passed := checked h (held.imp (⟨d, at_, ·⟩) (⟨d, at_, ·⟩))
    simp only [Snapshot.scanner, at_] at passed
    by_contra other
    simp [other] at passed
  · intro types h holder
    obtain ⟨d, at_, held⟩ : ∃ d, s.declarations[h]? = some d ∧
        (d.hasMarker r.container = true ∨ d.hasMarker r.single = true) := by grind
    simp [Snapshot.scanner, at_, types d (List.mem_of_getElem? at_) held]

/-- Merging can be done if only types hold items and every record is an item. -/
theorem succeeds_merge {r : Registry} (held : r.single.container? = some r.container)
    {s : Snapshot} {entry : Handle} {e : Declaration} (found : s.declarations[entry]? = some e) :
    Succeeds (r.merge s.scanner entry) ↔ ∀ d ∈ s.declarations,
      (d.hasMarker r.container = true ∨ d.hasMarker r.single = true → d.kind.isType = true) ∧
      ∀ v ∈ d.records r.single, v.IsRecord r.single fun a => Succeeds (r.item a) := by
  have readable : (∃ external own, ReadAs r.single r.item (s.recordsBeside entry r.single) external ∧
      ReadAs r.single r.item (s.scanner.records entry r.single) own) ↔ ∀ d ∈ s.declarations,
        ∀ v ∈ d.records r.single, v.IsRecord r.single fun a => Succeeds (r.item a) := by
    obtain ⟨inside, rfl⟩ := List.getElem?_eq_some_iff.1 found
    have all := List.getElem_cons_eraseIdx_perm inside
    simp only [← all.mem_iff, List.forall_mem_cons, exists_and_left, exists_and_right, exists_readAs]
    rw [and_comm]
    refine and_congr ?_ ?_
    · simp [Scanner.records, Snapshot.scanner, found]
    · rw [Snapshot.recordsBeside, List.forall_mem_flatMap]
  rw [forall₂_and, ← succeeds_checkedHolders, ← readable]
  simp only [Succeeds, merge_eq_ok held]
  grind

theorem succeeds_commands_item {a : Annotation} :
    Succeeds (commands.item a) ↔ Command.IsDeclaredBy a := by
  rw [← Command.succeeds_ofAnnotation]
  exact succeeds_bind_of_total fun _ => succeeds_pure _

theorem succeeds_permissions_item {a : Annotation} :
    Succeeds (permissions.item a) ↔ Permission.IsDeclaredBy a := by
  rw [← Permission.succeeds_ofAnnotation]
  exact succeeds_bind_of_total fun _ => succeeds_pure _

/-- Commands and permissions can both be merged if every declaration holds them as it should. -/
theorem succeeds_merges {s : Snapshot} {entry : Handle} {e : Declaration}
    (found : s.declarations[entry]? = some e) :
    Succeeds (commands.merge s.scanner entry) ∧ Succeeds (permissions.merge s.scanner entry) ↔
      ∀ d ∈ s.declarations, d.HoldsItems := by
  rw [succeeds_merge (r := commands) rfl found, succeeds_merge (r := permissions) rfl found,
    ← forall₂_and]
  refine forall₂_congr fun d _ => ?_
  simp only [succeeds_commands_item, succeeds_permissions_item, Declaration.forall_records]
  have container (m n : Marker) : some m = some n ↔ n = m := by simp [eq_comm]
  simp only [commands, permissions, Marker.container?, container]
  constructor
  · rintro ⟨⟨commandType, command⟩, permissionType, permission⟩
    refine ⟨?_, fun a ha => (command a ha).1, fun a ha => (command a ha).2,
      fun a ha => (permission a ha).1, fun a ha => (permission a ha).2⟩
    grind
  · intro holds
    exact ⟨⟨fun held => holds.isType (by grind),
        fun a ha => ⟨holds.command a ha, holds.commands a ha⟩⟩,
      fun held => holds.isType (by grind),
      fun a ha => ⟨holds.permission a ha, holds.permissions a ha⟩⟩

end Registry

theorem Document.exists_fill {d : Document} {parts : List Part} :
    (∃ filled, d.fill parts = (filled, none)) ↔ ∀ p ∈ parts, Succeeds p := by
  induction parts generalizing d with
  | nil => simp [fill]
  | cons p rest ih =>
    rw [List.forall_mem_cons]
    match p with
    | .error e => simp [fill]
    | .ok none => simp [fill, ih]
    | .ok (some (k, v)) => simp [fill, ih]

theorem assemble_eq_none {s : Scanner} {defaultVersion : String} :
    assemble s defaultVersion = .ok none ↔ s.scan .plugin = [] := by
  rw [← EntryPoint.choose_eq_none (s := s)]
  unfold assemble
  split
  · next failed => simp [failed]
  · next absent => simp [absent]
  · next chosen =>
    rw [chosen]
    cases s.declaration _ with
    | none => simp
    | some d => grind

theorem assemble_eq_some {s : Scanner} {defaultVersion : String} {doc : Document} :
    assemble s defaultVersion = .ok (some doc) ↔
      ∃ h d, EntryPoint.choose s (s.scan .plugin) = .ok (some h) ∧ s.declaration h = some d ∧
        Document.fill ∅ (Source.parts ⟨s, h, d, defaultVersion⟩) = (doc, none) := by
  unfold assemble
  cases EntryPoint.choose s (s.scan .plugin) with
  | error e => simp
  | ok chosen =>
    cases chosen with
    | none => simp
    | some h =>
      simp only [Except.ok.injEq, Option.some.injEq, exists_and_left, exists_eq_left']
      cases s.declaration h with
      | none => simp
      | some d =>
        simp only [Option.some.injEq, exists_eq_left']
        split <;> simp_all

/-- A descriptor can be assembled if there is one fit entry point and every part can be read. -/
theorem exists_assemble {s : Scanner} {defaultVersion : String} :
    (∃ doc, assemble s defaultVersion = .ok (some doc)) ↔
      ∃ h d, s.scan .plugin = [h] ∧ s.declaration h = some d ∧ d.IsEntryPoint ∧
        ∀ p ∈ Source.parts ⟨s, h, d, defaultVersion⟩, Succeeds p := by
  simp only [assemble_eq_some, EntryPoint.choose_eq_some, ← Document.exists_fill (d := ∅)]
  grind

/-- All parts of the descriptor can be read if what is said of the plugin and all commands and
permissions can. -/
theorem succeeds_parts {s : Snapshot} {h : Handle} {d : Declaration} {defaultVersion : String}
    (found : s.scanner.declaration h = some d) :
    (∀ p ∈ Source.parts ⟨s.scanner, h, d, defaultVersion⟩, Succeeds p) ↔
      d.HasMetadata ∧ ∀ e ∈ s.declarations, e.HoldsItems := by
  rw [← Source.succeeds_metadata (s := ⟨s.scanner, h, d, defaultVersion⟩) found,
    ← Registry.succeeds_merges found]
  have part (r : Registry) (key : String) :
      Succeeds (r.part key s.scanner h) ↔ Succeeds (r.merge s.scanner h) :=
    succeeds_bind_of_total fun _ => succeeds_pure _
  simp only [Source.parts, List.forall_mem_append, List.forall_mem_cons, part]
  grind

/-- A program without entry point has no descriptor, whatever else is wrong with it; a program that
describes a plugin has one; every other program fails. -/
theorem assemble_outcome (s : Snapshot) (o : Options) :
    (assemble s.scanner o.defaultVersion = .ok none ↔
      ∀ d ∈ s.declarations, d.hasMarker .plugin = false) ∧
    ((∃ doc, assemble s.scanner o.defaultVersion = .ok (some doc)) ↔ s.DescribesPlugin) ∧
    ((∃ e, assemble s.scanner o.defaultVersion = .error e) ↔
      (∃ d ∈ s.declarations, d.hasMarker .plugin = true) ∧ ¬ s.DescribesPlugin) := by
  have none : assemble s.scanner o.defaultVersion = .ok none ↔
      ∀ d ∈ s.declarations, d.hasMarker .plugin = false := by
    rw [assemble_eq_none, Snapshot.scan_eq_nil]
  have some : (∃ doc, assemble s.scanner o.defaultVersion = .ok (some doc)) ↔
      s.DescribesPlugin := by
    rw [exists_assemble]
    constructor
    · rintro ⟨h, e, only, known, fit, parts⟩
      obtain ⟨metadata, holders⟩ := (succeeds_parts known).1 parts
      exact ⟨⟨e, Snapshot.scan_eq_singleton.1 ⟨h, only, known⟩, fit, metadata⟩, holders⟩
    · rintro ⟨⟨e, only, fit, metadata⟩, holders⟩
      obtain ⟨h, found, known⟩ := Snapshot.scan_eq_singleton.2 only
      exact ⟨h, e, found, known, fit, (succeeds_parts known).2 ⟨metadata, holders⟩⟩
  refine ⟨none, some, ?_⟩
  have marked : (∃ d ∈ s.declarations, d.hasMarker .plugin = true) ↔
      assemble s.scanner o.defaultVersion ≠ .ok .none := by
    rw [ne_eq, none]
    simp
  rw [marked, ← some]
  cases assemble s.scanner o.defaultVersion with
  | error e => simp
  | ok result => cases result <;> simp

end PluginDescriptor
