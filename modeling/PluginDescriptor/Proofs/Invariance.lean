import PluginDescriptor.Proofs.Relevance

namespace PluginDescriptor

namespace Declaration

theorem Alike.refl (d : Declaration) : d.Alike d :=
  ⟨rfl, rfl, rfl, fun _ => ⟨rfl, rfl, rfl⟩, fun _ _ => rfl, fun _ _ => rfl⟩

theorem Alike.isRelevant {d d' : Declaration} (alike : d.Alike d') :
    d.isRelevant = d'.isRelevant := by
  have commands := alike.holds .commands (by simp [Registry.both])
  have permissions := alike.holds .permissions (by simp [Registry.both])
  simp only [Declaration.isRelevant, Registry.both, List.any_cons, List.any_nil, alike.isEntry,
    commands, permissions]

/-- The declaration is no entry point and holds neither commands nor permissions. -/
def IsIdle (d : Declaration) : Prop :=
  ∀ m ∈ [Marker.plugin, .command, .commands, .permission, .permissions], d.hasMarker m = false

/-- Neither declaration is an entry point. They differ at most in what encloses them, in their
modifiers, and in annotations that are none of commands or permissions. -/
structure Retouches (d d' : Declaration) : Prop where
  qualifiedName : d.qualifiedName = d'.qualifiedName
  kind : d.kind = d'.kind
  noEntry : d.hasMarker .plugin = false
  noEntry' : d'.hasMarker .plugin = false
  items : d.itemAnnotations = d'.itemAnnotations

theorem IsIdle.isRelevant {d : Declaration} (idle : d.IsIdle) : d.isRelevant = false := by
  simp only [IsIdle, List.forall_mem_cons, List.not_mem_nil, false_implies, implies_true,
    and_true] at idle
  obtain ⟨plugin, command, commands, permission, permissions⟩ := idle
  simp [Declaration.isRelevant, Registry.both, Registry.isHeldBy, Registry.commands,
    Registry.permissions, plugin, command, commands, permission, permissions]

theorem Retouches.alike {d d' : Declaration} (retouches : d.Retouches d') : d.Alike d' := by
  have marked (m : Marker) (item : m ∈ Marker.items) : d.hasMarker m = d'.hasMarker m :=
    hasMarker_eq_of_filter retouches.items fun a same => by simp [same, item]
  refine ⟨retouches.qualifiedName, retouches.kind, ?_, ?_, fun r member => ?_, fun r member => ?_⟩
  · rw [retouches.noEntry, retouches.noEntry']
  · intro entry
    rw [retouches.noEntry] at entry
    cases entry
  · obtain ⟨_, single, container⟩ := Registry.markers_of_mem member
    rw [Registry.isHeldBy, marked _ single, marked _ container, Registry.isHeldBy]
  · obtain ⟨held, single, container⟩ := Registry.markers_of_mem member
    refine instances_eq_of_filter retouches.items fun a dropped => ?_
    have apart : a.marker ∉ Marker.items := by simpa using dropped
    have other : a.marker ≠ r.single := fun same => apart (same ▸ single)
    have other' : r.container ≠ a.marker := fun same => apart (same ▸ container)
    simp [instancesIn, other, held, other']

end Declaration

namespace Snapshot

theorem relevant_cons {d d' : Declaration} {l l' : List Declaration} (alike : d.Alike d')
    (rest : List.Forall₂ Declaration.Alike (l.filter (·.isRelevant)) (l'.filter (·.isRelevant))) :
    List.Forall₂ Declaration.Alike ((d :: l).filter (·.isRelevant))
      ((d' :: l').filter (·.isRelevant)) := by
  have same := alike.isRelevant
  by_cases relevant : d.isRelevant = true
  · rw [List.filter_cons_of_pos relevant, List.filter_cons_of_pos (same ▸ relevant)]
    exact .cons alike rest
  · rw [List.filter_cons_of_neg relevant, List.filter_cons_of_neg (same ▸ relevant)]
    exact rest

theorem agrees_of_alike {s t : Snapshot}
    (alike : List.Forall₂ Declaration.Alike s.declarations t.declarations) : s.Agrees t := by
  unfold Agrees
  generalize s.declarations = l, t.declarations = l' at alike ⊢
  induction alike with
  | nil => exact .nil
  | cons first _ ih => exact relevant_cons first ih

/-- The second program comes from the first by changes that do not concern the plugin. -/
inductive Edits : List Declaration → List Declaration → Prop
  | nil : Edits [] []
  | insert {d l l'} : d.IsIdle → Edits l l' → Edits l (d :: l')
  | delete {d l l'} : d.IsIdle → Edits l l' → Edits (d :: l) l'
  | keep {l l'} (d) : Edits l l' → Edits (d :: l) (d :: l')
  | retouch {d d' l l'} : d.Retouches d' → Edits l l' → Edits (d :: l) (d' :: l')

theorem Edits.agrees {s t : Snapshot} (edits : Edits s.declarations t.declarations) :
    s.Agrees t := by
  unfold Agrees
  generalize s.declarations = l, t.declarations = l' at edits ⊢
  induction edits with
  | nil => exact .nil
  | insert idle _ ih => rwa [List.filter_cons_of_neg (by simp [idle.isRelevant])]
  | delete idle _ ih => rwa [List.filter_cons_of_neg (by simp [idle.isRelevant])]
  | keep d _ ih => exact relevant_cons (.refl d) ih
  | retouch retouches _ ih => exact relevant_cons retouches.alike ih

end Snapshot

/-- Declarations that do not concern the plugin never matter, nor does what they say. -/
theorem assemble_edits {s t : Snapshot} (edits : Snapshot.Edits s.declarations t.declarations)
    (o : Options) (reported : List Diagnostic) :
    assembleReporting s.scanner o.defaultVersion reported =
      assembleReporting t.scanner o.defaultVersion reported := by
  rw [assembleReporting, assemble_agrees edits.agrees, assembleReporting]

/-- A program with a helper beside its plugin. -/
def Snapshot.plain : Snapshot where
  declarations :=
    [{ qualifiedName := "demo.Main", kind := .classType, enclosing := .package "demo",
       annotations := [⟨.plugin, []⟩, ⟨.website, [("value", .str "demo.org")]⟩] },
      { qualifiedName := "demo.Util", kind := .interfaceType, enclosing := .package "demo" },
      { qualifiedName := "demo.Fly", kind := .classType, enclosing := .package "demo",
        annotations := [⟨.command, [("name", .str "fly")]⟩] }]

/-- The same program with a field in front and without the helper. What is said of the plugin beside
the command cannot even be read. -/
def Snapshot.busy : Snapshot where
  declarations :=
    [{ qualifiedName := "demo.Main#log", kind := .field, enclosing := .type "demo.Main",
       annotations := [⟨.author, []⟩] },
      { qualifiedName := "demo.Main", kind := .classType, enclosing := .package "demo",
        annotations := [⟨.plugin, []⟩, ⟨.website, [("value", .str "demo.org")]⟩] },
      { qualifiedName := "demo.Fly", kind := .classType, enclosing := .type "demo.Main",
        modifiers := [.abstract, .static],
        annotations := [⟨.loadOrder, [("value", .str "never")]⟩, ⟨.command, [("name", .str "fly")]⟩,
          ⟨.author, []⟩] }]

theorem assemble_edits_busy :
    Snapshot.Edits Snapshot.plain.declarations Snapshot.busy.declarations ∧
    ∃ doc : Document,
      doc.entries = [("main", .str "demo.Main"), ("name", .str "Main"), ("version", .str "v0.0"),
        ("website", .str "demo.org"), ("commands", .map [("fly", .map [])]),
        ("permissions", .map [])] ∧
      assembleReporting Snapshot.plain.scanner ({} : Options).defaultVersion [] =
        (.ok (some doc), []) ∧
      assembleReporting Snapshot.busy.scanner ({} : Options).defaultVersion [] =
        (.ok (some doc), []) := by
  have edits : Snapshot.Edits Snapshot.plain.declarations Snapshot.busy.declarations := by
    refine .insert ?_ (.keep _ (.delete ?_ (.retouch ?_ .nil)))
    · unfold Declaration.IsIdle
      decide
    · unfold Declaration.IsIdle
      decide
    · exact ⟨rfl, rfl, rfl, rfl, rfl⟩
  refine ⟨edits, { entries := _, nodup_keys := by decide }, rfl, rfl, ?_⟩
  rw [← assemble_edits edits {} []]
  rfl

/-- The annotation is a container, and what it holds are these annotations with the marker that it
is for, as a single one or in an array. -/
structure Annotation.Wraps (a : Annotation) (marker : Marker) (held : List Annotation) : Prop where
  container : marker.container? = some a.marker
  value : ∃ v, a.field? "value" = some v ∧ v.items = held.map Annotation.toValue
  marked : ∀ b ∈ held, b.marker = marker
  nonempty : held ≠ []

theorem instancesAmong_direct {marker : Marker} {l : List Annotation}
    (marked : ∀ a ∈ l, a.marker = marker) : instancesAmong marker l = .ok l := by
  induction l with
  | nil => rfl
  | cons a r ih =>
    rw [List.forall_mem_cons] at marked
    have split := instancesAmong_append marker [a] r
    have alone : instancesAmong marker [a] = .ok [a] := by
      simp [instancesAmong, Declaration.instancesIn, marked.1, bind, Except.bind, pure, Except.pure,
        Except.map]
    rw [List.singleton_append, alone, ih marked.2] at split
    exact split

theorem instancesAmong_idle {marker : Marker} {l : List Annotation}
    (idle : ∀ a ∈ l, Declaration.instancesIn marker a = .ok []) :
    instancesAmong marker l = .ok [] := by
  have dropped := instancesAmong_filter (p := fun _ => false) fun a member _ => idle a member
  rw [← dropped, List.filter_false]
  rfl

theorem Marker.container?_injective {m n c : Marker} (first : m.container? = some c)
    (second : n.container? = some c) : m = n := by
  revert first second
  cases m <;> cases n <;> simp +contextual [container?, eq_comm]

namespace Annotation.Wraps

variable {a : Annotation} {marker : Marker} {held : List Annotation}

/-- A container and what it holds stand for the same commands, and for the same permissions. -/
theorem instancesAmong_eq (wraps : a.Wraps marker held) {single container : Marker}
    (repeatable : single.container? = some container) :
    instancesAmong single [a] = instancesAmong single held := by
  have outer : a.marker ≠ single := fun same => by
    have bare := Marker.container?_container? wraps.container
    rw [same, repeatable] at bare
    cases bare
  by_cases own : single = marker
  · subst own
    obtain ⟨v, set, items⟩ := wraps.value
    have records : a.records "value" single = .ok held :=
      records_eq_ok.2 ⟨by rw [fieldItems, set, Option.elim_some, items], wraps.marked⟩
    rw [instancesAmong_direct wraps.marked]
    simp [instancesAmong, Declaration.instancesIn, outer, wraps.container, records, bind,
      Except.bind, pure, Except.pure, Except.map]
  · have idle : Declaration.instancesIn single a = .ok [] := by
      have foreign : single.container? ≠ some a.marker := fun same =>
        own (Marker.container?_injective same wraps.container)
      rw [Declaration.instancesIn, if_neg outer, if_neg foreign]
    have idleHeld : ∀ b ∈ held, Declaration.instancesIn single b = .ok [] := by
      intro b member
      have foreign : single.container? ≠ some marker := fun same => by
        have bare := Marker.container?_container? same
        rw [wraps.container] at bare
        cases bare
      rw [Declaration.instancesIn, wraps.marked b member, if_neg (Ne.symm own), if_neg foreign]
    rw [instancesAmong_idle idleHeld, instancesAmong_idle (by simpa using idle)]

theorem any_marker_eq (wraps : a.Wraps marker held) {m : Marker} (single : m ≠ marker)
    (container : m ≠ a.marker) : held.any (·.marker == m) = [a].any (·.marker == m) := by
  have foreign : held.any (·.marker == m) = false := by
    rw [List.any_eq_false]
    intro b member
    simp [wraps.marked b member, Ne.symm single]
  rw [foreign]
  simp [Ne.symm container]

theorem any_marker (wraps : a.Wraps marker held) : held.any (·.marker == marker) = true := by
  obtain ⟨b, member⟩ := List.exists_mem_of_ne_nil held wraps.nonempty
  exact List.any_eq_true.2 ⟨b, member, by simp [wraps.marked b member]⟩

/-- Neither the container nor what it holds says anything of the plugin as a whole. -/
theorem items (wraps : a.Wraps marker held) : marker ∈ Marker.items ∧ a.marker ∈ Marker.items := by
  have container := wraps.container
  generalize a.marker = m at container ⊢
  unfold Marker.container? at container
  split at container
  · cases container; decide
  · cases container; decide
  · cases container

end Annotation.Wraps

/-- A declaration shows the same when one of its containers is opened. -/
theorem Declaration.Alike.opened {d : Declaration} {front back held : List Annotation}
    {a : Annotation} {marker : Marker} (wraps : a.Wraps marker held)
    (annotations : d.annotations = front ++ a :: back) :
    d.Alike { d with annotations := front ++ held ++ back } := by
  have row : d.annotations = front ++ [a] ++ back := by simp [annotations]
  have carried {m : Marker} (single : m ≠ marker) (container : m ≠ a.marker) :
      d.hasMarker m = hasMarker { d with annotations := front ++ held ++ back } m := by
    simp only [hasMarker, row, List.any_append, wraps.any_marker_eq single container]
  obtain ⟨item, itemContainer⟩ := wraps.items
  have outside {m : Marker} (apart : m ∉ Marker.items) : m ≠ marker ∧ m ≠ a.marker :=
    ⟨fun same => apart (same ▸ item), fun same => apart (same ▸ itemContainer)⟩
  refine ⟨rfl, rfl, ?_, fun _ => ⟨rfl, rfl, ?_⟩, fun r member => ?_, fun r member => ?_⟩
  · obtain ⟨single, container⟩ := outside (m := .plugin) (by decide)
    exact carried single container
  · have heldItems : held.filter (·.marker ∉ Marker.items) = [] :=
      List.filter_eq_nil_iff.2 fun b inside => by simp [wraps.marked b inside, item]
    simp only [metadata, row, List.filter_append, heldItems]
    simp [itemContainer]
  · obtain ⟨repeatable, _, _⟩ := Registry.markers_of_mem member
    by_cases own : r.single = marker
    · -- The container alone makes a holder before, and what it held makes one afterwards.
      have container : r.container = a.marker := by
        rw [own, wraps.container] at repeatable
        exact (Option.some.inj repeatable).symm
      have before : d.hasMarker r.container = true := by
        simp [hasMarker, row, container]
      have after : hasMarker { d with annotations := front ++ held ++ back } r.single = true := by
        simp only [hasMarker, List.any_append, own, wraps.any_marker, Bool.or_true, Bool.true_or]
      simp only [Registry.isHeldBy, before, after, Bool.true_or, Bool.or_true]
    · have bare := Marker.container?_container? repeatable
      have bareOuter := Marker.container?_container? wraps.container
      have inner : r.single ≠ a.marker := fun same => by
        rw [same, bareOuter] at repeatable
        cases repeatable
      have outer : r.container ≠ marker := fun same => by
        rw [same, wraps.container] at bare
        cases bare
      have outer' : r.container ≠ a.marker := fun same =>
        own (Marker.container?_injective (same ▸ repeatable) wraps.container)
      simp only [Registry.isHeldBy, carried own inner, carried outer outer']
  · obtain ⟨repeatable, _, _⟩ := Registry.markers_of_mem member
    have opened := wraps.instancesAmong_eq repeatable
    change instancesAmong r.single d.annotations = instancesAmong r.single (front ++ held ++ back)
    simp only [row, instancesAmong_append, opened]

/-- Commands and permissions in a container count as if they stood in its place themselves. -/
theorem assemble_opened {before after : List Declaration} {d : Declaration}
    {front back held : List Annotation} {a : Annotation} {marker : Marker}
    (wraps : a.Wraps marker held) (annotations : d.annotations = front ++ a :: back)
    (o : Options) (reported : List Diagnostic) :
    assembleReporting (Snapshot.scanner ⟨before ++ d :: after⟩) o.defaultVersion reported =
      assembleReporting
        (Snapshot.scanner
          ⟨before ++ { d with annotations := front ++ held ++ back } :: after⟩)
        o.defaultVersion reported := by
  have opened := Declaration.Alike.opened wraps annotations
  have agrees : Snapshot.Agrees ⟨before ++ d :: after⟩
      ⟨before ++ { d with annotations := front ++ held ++ back } :: after⟩ := by
    refine Snapshot.agrees_of_alike (List.rel_append ?_ (.cons opened ?_))
    · exact List.forall₂_same.2 fun e _ => .refl e
    · exact List.forall₂_same.2 fun e _ => .refl e
  rw [assembleReporting, assemble_agrees agrees, assembleReporting]

/-- An enum with commands by themselves around a container of two. -/
def Declaration.wing : Declaration where
  qualifiedName := "demo.Wing"
  kind := .enumType
  enclosing := .package "demo"
  annotations :=
    [⟨.command, [("name", .str "fly")]⟩,
      ⟨.commands, [("value", .array [.nested .command [("name", .str "land")],
        .nested .command [("name", .str "fly"), ("usage", .str "/fly")]])]⟩,
      ⟨.command, [("name", .str "glide"), ("aliases", .bool true)]⟩]

/-- The commands in the container of `wing`. -/
def Declaration.wingHeld : List Annotation :=
  [⟨.command, [("name", .str "land")]⟩, ⟨.command, [("name", .str "fly"), ("usage", .str "/fly")]⟩]

/-- The class `demo.Main` as a plugin. -/
def Declaration.main : Declaration where
  qualifiedName := "demo.Main"
  kind := .classType
  enclosing := .package "demo"
  annotations := [⟨.plugin, []⟩]

theorem assemble_opened_wing :
    ∃ front container back, Declaration.wing.annotations = front ++ container :: back ∧
      container.Wraps .command Declaration.wingHeld ∧
      assembleReporting (Snapshot.scanner ⟨[.main, .wing]⟩) ({} : Options).defaultVersion [] =
        (.error (.invalidValue .command "aliases" "true"),
          [⟨"Invalid value for Command.aliases: true", none⟩]) ∧
      assembleReporting
          (Snapshot.scanner ⟨[.main,
            { Declaration.wing with annotations := front ++ Declaration.wingHeld ++ back }]⟩)
          ({} : Options).defaultVersion [] =
        (.error (.invalidValue .command "aliases" "true"),
          [⟨"Invalid value for Command.aliases: true", none⟩]) := by
  have annotations : Declaration.wing.annotations =
      [⟨.command, [("name", .str "fly")]⟩] ++ ⟨.commands, [("value", .array
        [.nested .command [("name", .str "land")],
          .nested .command [("name", .str "fly"), ("usage", .str "/fly")]])]⟩ ::
        [⟨.command, [("name", .str "glide"), ("aliases", .bool true)]⟩] := rfl
  have wraps : Annotation.Wraps ⟨.commands, [("value", .array
      [.nested .command [("name", .str "land")],
        .nested .command [("name", .str "fly"), ("usage", .str "/fly")]])]⟩ .command
      Declaration.wingHeld := ⟨rfl, ⟨_, rfl, rfl⟩, by decide, by decide⟩
  refine ⟨_, _, _, annotations, wraps, rfl, ?_⟩
  have same (before after : List Declaration) := @assemble_opened before after _ _ _ _ _ _ wraps
    annotations {} []
  exact (same [.main] []).symm.trans rfl

end PluginDescriptor
