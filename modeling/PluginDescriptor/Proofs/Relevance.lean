import PluginDescriptor.Assembly
import PluginDescriptor.Proofs.Acceptance

namespace PluginDescriptor

/-- The markers of commands and permissions, which count on every declaration. -/
def Marker.items : List Marker := [.command, .commands, .permission, .permissions]

/-- The commands, and the permissions. -/
def Registry.both : List Registry := [.commands, .permissions]

theorem Registry.markers_of_mem {r : Registry} (member : r ∈ both) :
    r.single.container? = some r.container ∧ r.single ∈ Marker.items ∧
      r.container ∈ Marker.items := by
  simp only [both, List.mem_cons, List.not_mem_nil, or_false] at member
  rcases member with rfl | rfl
  · decide
  · decide

/-- The instances of a marker in a row of annotations. -/
def instancesAmong (marker : Marker) (l : List Annotation) : Except Fault (List Annotation) :=
  (l.mapM (Declaration.instancesIn marker)).map List.flatten

theorem instancesAmong_append (marker : Marker) (l k : List Annotation) :
    instancesAmong marker (l ++ k) = do
      let first ← instancesAmong marker l
      let second ← instancesAmong marker k
      return first ++ second := by
  unfold instancesAmong
  rw [List.mapM_append]
  cases l.mapM (Declaration.instancesIn marker) with
  | error e => rfl
  | ok rows =>
    cases k.mapM (Declaration.instancesIn marker) with
    | error e => rfl
    | ok rows' => simp [bind, Except.bind, pure, Except.pure, Except.map]

/-- Annotations that hold no instance can be left out. -/
theorem instancesAmong_filter {marker : Marker} {p : Annotation → Bool} {l : List Annotation}
    (idle : ∀ a ∈ l, p a = false → Declaration.instancesIn marker a = .ok []) :
    instancesAmong marker (l.filter p) = instancesAmong marker l := by
  induction l with
  | nil => rfl
  | cons a r ih =>
    rw [List.forall_mem_cons] at idle
    have rest := ih idle.2
    have split := instancesAmong_append marker [a] r
    rw [List.singleton_append] at split
    by_cases kept : p a = true
    · have splitKept := instancesAmong_append marker [a] (r.filter p)
      rw [List.singleton_append] at splitKept
      rw [List.filter_cons_of_pos kept, split, splitKept, rest]
    · have none := idle.1 (by simpa using kept)
      have alone : instancesAmong marker [a] = .ok [] := by
        simp [instancesAmong, none, bind, Except.bind, pure, Except.pure, Except.map]
      rw [List.filter_cons_of_neg kept, rest, split, alone]
      cases instancesAmong marker r <;> rfl

namespace Declaration

/-- The annotations that say something of commands or permissions. -/
def itemAnnotations (d : Declaration) : List Annotation :=
  d.annotations.filter (·.marker ∈ Marker.items)

/-- All other annotations. -/
def metadata (d : Declaration) : List Annotation := d.annotations.filter (·.marker ∉ Marker.items)

theorem instances_eq_of_filter {d d' : Declaration} {marker : Marker} {p : Annotation → Bool}
    (same : d.annotations.filter p = d'.annotations.filter p)
    (idle : ∀ a, p a = false → instancesIn marker a = .ok []) :
    d.instances marker = d'.instances marker := by
  have kept (e : Declaration) :
      instancesAmong marker (e.annotations.filter p) = e.instances marker :=
    instancesAmong_filter fun a _ => idle a
  rw [← kept d, ← kept d', same]

theorem hasMarker_eq_of_filter {d d' : Declaration} {marker : Marker} {p : Annotation → Bool}
    (same : d.annotations.filter p = d'.annotations.filter p)
    (kept : ∀ a, a.marker = marker → p a = true) : d.hasMarker marker = d'.hasMarker marker := by
  have seen (e : Declaration) :
      (e.annotations.filter p).any (·.marker == marker) = e.hasMarker marker := by
    rw [List.any_filter]
    refine List.any_congr rfl fun a => ?_
    by_cases marked : a.marker = marker
    · simp [kept a marked]
    · simp [marked]
  rw [← seen d, ← seen d', same]

/-- What the declaration says under the first annotation with a marker that is no item's. -/
theorem find?_metadata {d : Declaration} {marker : Marker} (apart : marker ∉ Marker.items) :
    d.metadata.find? (·.marker == marker) = d.annotations.find? (·.marker == marker) := by
  unfold metadata
  rw [List.find?_filter]
  refine congrArg (d.annotations.find? ·) (funext fun a => ?_)
  by_cases marked : a.marker = marker
  · simp [marked, apart]
  · simp [marked]

end Declaration

theorem Marker.container?_of_not_item {m : Marker} (apart : m ∉ Marker.items) :
    m.container? = none := by
  revert apart
  cases m <;> decide

namespace Source

/-- What is said of the plugin as a whole depends on the entry point's name and on its annotations
beside commands and permissions. -/
theorem metadata_eq_of_metadata {s t : Source} {d d' : Declaration}
    (found : s.scanner.declaration s.entry = some d)
    (found' : t.scanner.declaration t.entry = some d')
    (name : s.declaration.qualifiedName = t.declaration.qualifiedName)
    (version : s.defaultVersion = t.defaultVersion) (same : d.metadata = d'.metadata) :
    s.metadata = t.metadata ∧ s.apiVersionPart = t.apiVersionPart := by
  have scalar (marker : Marker) (apart : marker ∉ Marker.items) (field : String) :
      s.scalar? marker field = t.scalar? marker field := by
    have first := congrArg (List.find? (·.marker == marker)) same
    rw [Declaration.find?_metadata apart, Declaration.find?_metadata apart] at first
    simp only [scalar?, Scanner.field?, Scanner.firstInstance?, found, found', first]
  have row (marker : Marker) (apart : marker ∉ Marker.items) :
      s.values marker = t.values marker := by
    have instances : d.instances marker = d'.instances marker := by
      refine Declaration.instances_eq_of_filter same fun a dropped => ?_
      have item : a.marker ∈ Marker.items := by simpa using dropped
      have other : a.marker ≠ marker := fun same => apart (same ▸ item)
      simp [Declaration.instancesIn, other, Marker.container?_of_not_item apart]
    simp only [values, Scanner.instances, found, found', instances]
  have simple : s.declaration.simpleName = t.declaration.simpleName := by
    unfold Declaration.simpleName
    rw [name]
  constructor
  · simp only [metadata, namePart, versionPart, textPart, loadPart, authorPart, listPart, name,
      version, simple, scalar .plugin (by decide), scalar .description (by decide),
      scalar .loadOrder (by decide), scalar .website (by decide), scalar .logPrefix (by decide),
      row .author (by decide), row .library (by decide), row .dependency (by decide),
      row .softDependency (by decide), row .loadBefore (by decide)]
  · simp only [apiVersionPart, scalar .apiVersion (by decide)]

end Source

namespace Registry

/-- The declaration holds items, by themselves or in a container. -/
def isHeldBy (r : Registry) (d : Declaration) : Bool :=
  d.hasMarker r.container || d.hasMarker r.single

/-- Only a type may hold items. -/
def requireType (r : Registry) (d : Declaration) : Except Fault Unit :=
  if d.kind.isType then .ok () else .error (r.notAType d.qualifiedName)

/-- The items on one declaration. -/
def itemsFrom (r : Registry) (d : Declaration) : Except Fault Document := do
  let entries ← (← d.instances r.single).mapM r.item
  return .ofList entries

/-- The items of a row of declarations, added to what there is. -/
def addAll (r : Registry) (merged : Document) (l : List Declaration) : Except Fault Document :=
  l.foldlM (fun merged d => do return merged.extend (← r.itemsFrom d)) merged

variable {r : Registry} {s : Scanner} {handles : List Handle} {l : List Declaration}

theorem itemsOf_eq {h : Handle} {d : Declaration} (found : s.declaration h = some d) :
    r.itemsOf s h = r.itemsFrom d := by
  simp only [itemsOf, itemsFrom, Scanner.instances, found]

theorem foldlM_itemsOf (found : handles.map s.declaration = l.map some) (merged : Document) :
    handles.foldlM (fun merged h => do return merged.extend (← r.itemsOf s h)) merged =
      r.addAll merged l := by
  induction handles generalizing l merged with
  | nil => cases l with
    | nil => rfl
    | cons d rest => simp at found
  | cons h rest ih => cases l with
    | nil => simp at found
    | cons d l =>
      simp only [List.map_cons, List.cons.injEq] at found
      simp only [addAll, List.foldlM_cons, itemsOf_eq found.1]
      refine congrArg _ (funext fun next => ih found.2 next)

theorem checkedHolders_eq
    (found : (ascending (s.scan r.container ++ s.scan r.single)).map s.declaration = l.map some) :
    r.checkedHolders s = do
      forM l r.requireType
      return ascending (s.scan r.container ++ s.scan r.single) := by
  unfold checkedHolders
  generalize ascending (s.scan r.container ++ s.scan r.single) = handles at found ⊢
  induction handles generalizing l with
  | nil => cases l with
    | nil => rfl
    | cons d rest => simp at found
  | cons h rest ih => cases l with
    | nil => simp at found
    | cons d l =>
      simp only [List.map_cons, List.cons.injEq] at found
      rw [List.mapM_cons, ih found.2, found.1, List.forM_cons]
      by_cases isType : d.kind.isType = true
      · simp only [requireType, isType, if_true, bind_assoc, pure_bind]
        rfl
      · simp only [requireType, isType]
        rfl

end Registry

/-- The positions of a row that pass a test lead to the elements that pass it. -/
theorem map_getElem?_filter {α : Type} {l : List α} {p : Nat → Bool} {q : α → Bool}
    (same : ∀ i a, l[i]? = some a → p i = q a) {places : List Nat}
    (inside : ∀ i ∈ places, i < l.length) :
    (places.filter p).map (l[·]?) =
      places.flatMap fun i => l[i]?.elim [] fun a => if q a then [some a] else [] := by
  induction places with
  | nil => rfl
  | cons i rest ih =>
    rw [List.forall_mem_cons] at inside
    have there := List.getElem?_eq_getElem inside.1
    rw [List.flatMap_cons, ← ih inside.2, there, Option.elim_some, ← same i _ there]
    by_cases kept : p i = true
    · simp [kept, there]
    · simp [kept]

theorem flatMap_if_some {α : Type} (q : α → Bool) (l : List α) :
    (l.flatMap fun a => if q a then [some a] else []) = (l.filter q).map some := by
  induction l with
  | nil => rfl
  | cons a r ih =>
    rw [List.flatMap_cons, ih]
    by_cases kept : q a = true
    · simp [kept]
    · simp [kept]

/-- The only element that passes a test is taken out by dropping all that pass it. -/
theorem eraseIdx_eq_filter {α : Type} {p : α → Bool} {l : List α} {k : Nat} {e : α}
    (only : l.filter p = [e]) (found : l[k]? = some e) : l.eraseIdx k = l.filter (!p ·) := by
  have passes : p e = true := by
    have member : e ∈ l.filter p := by simp [only]
    exact (List.mem_filter.1 member).2
  induction l generalizing k with
  | nil => simp at only
  | cons a r ih =>
    by_cases kept : p a = true
    · rw [List.filter_cons_of_pos kept, List.cons.injEq, List.filter_eq_nil_iff] at only
      obtain ⟨rfl, others⟩ := only
      have first : k = 0 := by
        by_contra later
        obtain ⟨k, rfl⟩ := Nat.exists_eq_succ_of_ne_zero later
        rw [List.getElem?_cons_succ] at found
        exact others a (List.mem_of_getElem? found) passes
      have rest : r.filter (!p ·) = r := List.filter_eq_self.2 fun b member => by
        simpa using others b member
      rw [first, List.eraseIdx_cons_zero, List.filter_cons_of_neg (by simp [kept]), rest]
    · rw [List.filter_cons_of_neg kept] at only
      obtain ⟨k, rfl⟩ : ∃ k', k = k' + 1 := by
        cases k with
        | zero =>
          cases Option.some.inj found
          exact absurd passes kept
        | succ k => exact ⟨k, rfl⟩
      rw [List.getElem?_cons_succ] at found
      rw [List.eraseIdx_cons_succ, List.filter_cons_of_pos (by simp [kept]), ih only found]

namespace Registry

variable {r : Registry} {s : Snapshot}

/-- The handles of a registry's holders lead to the declarations that hold items, in their order. -/
theorem map_holders (r : Registry) (s : Snapshot) :
    (ascending (s.scanner.scan r.container ++ s.scanner.scan r.single)).map s.scanner.declaration =
        (s.declarations.filter r.isHeldBy).map some ∧
      ∀ entry, ((ascending (s.scanner.scan r.container ++ s.scanner.scan r.single)).filter
          (· != entry)).map s.scanner.declaration =
        ((s.declarations.eraseIdx entry).filter r.isHeldBy).map some := by
  generalize found : s.scanner.scan r.container ++ s.scanner.scan r.single = handles
  have held (h : Nat) (d : Declaration) (at_ : s.declarations[h]? = some d) :
      decide (h ∈ handles) = r.isHeldBy d := by
    rw [← found, Bool.eq_iff_iff, decide_eq_true_eq, List.mem_append, Snapshot.mem_scan,
      Snapshot.mem_scan, isHeldBy, Bool.or_eq_true]
    grind
  have below : ∀ h ∈ handles, h < s.declarations.length := by
    intro h member
    rw [← found, List.mem_append, Snapshot.mem_scan, Snapshot.mem_scan] at member
    rcases member with ⟨d, at_, _⟩ | ⟨d, at_, _⟩
    · exact (List.getElem?_eq_some_iff.1 at_).1
    · exact (List.getElem?_eq_some_iff.1 at_).1
  rw [ascending_eq_filter below]
  refine ⟨?_, fun entry => ?_⟩
  · have inside : ∀ i ∈ List.range s.declarations.length, i < s.declarations.length :=
      fun i => List.mem_range.1
    rw [Snapshot.scanner, map_getElem?_filter held inside, flatMap_range_getElem?, flatMap_if_some]
  · have inside : ∀ i ∈ (List.range s.declarations.length).filter (· != entry),
        i < s.declarations.length := fun i member => List.mem_range.1 (List.mem_filter.1 member).1
    rw [List.filter_comm, Snapshot.scanner, map_getElem?_filter held inside, flatMap_range_ne,
      flatMap_if_some]

/-- Merging, said of declarations alone: all that hold items have to be types, and the items of the
entry point come after those of all others. -/
theorem merge_eq {entry : Handle} {e : Declaration} (known : s.declarations[entry]? = some e) :
    r.merge s.scanner entry = (do
      forM (s.declarations.filter r.isHeldBy) r.requireType
      r.addAll ∅ ((s.declarations.eraseIdx entry).filter r.isHeldBy ++ [e])) := by
  obtain ⟨all, beside⟩ := map_holders r s
  have row := beside entry
  rw [merge, checkedHolders_eq all]
  generalize ascending (s.scanner.scan r.container ++ s.scanner.scan r.single) = handles at row
  have found : (handles.filter (· != entry) ++ [entry]).map s.scanner.declaration =
      ((s.declarations.eraseIdx entry).filter r.isHeldBy ++ [e]).map some := by
    have own : s.scanner.declaration entry = some e := known
    rw [List.map_append, List.map_append, row, List.map_singleton, List.map_singleton, own]
  simp only [bind_assoc, pure_bind, foldlM_itemsOf found]

end Registry

/-- The declarations show the same to everyone who looks for a plugin, its commands and its
permissions; the entry point also shows what it says of the plugin as a whole. -/
structure Declaration.Alike (d d' : Declaration) : Prop where
  qualifiedName : d.qualifiedName = d'.qualifiedName
  kind : d.kind = d'.kind
  isEntry : d.hasMarker .plugin = d'.hasMarker .plugin
  entry : d.hasMarker .plugin = true →
    d.enclosing = d'.enclosing ∧ d.modifiers = d'.modifiers ∧ d.metadata = d'.metadata
  holds : ∀ r ∈ Registry.both, r.isHeldBy d = r.isHeldBy d'
  instances : ∀ r ∈ Registry.both, d.instances r.single = d'.instances r.single

/-- The declaration carries a marker that counts on every declaration. -/
def Declaration.isRelevant (d : Declaration) : Bool :=
  d.hasMarker .plugin || Registry.both.any (·.isHeldBy d)

namespace Registry

variable {r : Registry} {l l' : List Declaration}

theorem addAll_alike (member : r ∈ both) (alike : List.Forall₂ Declaration.Alike l l')
    (merged : Document) : r.addAll merged l = r.addAll merged l' := by
  induction alike generalizing merged with
  | nil => rfl
  | @cons d d' l l' first _ ih =>
    have items : r.itemsFrom d = r.itemsFrom d' := by
      unfold itemsFrom
      rw [first.instances r member]
    simp only [addAll, List.foldlM_cons, items]
    exact congrArg _ (funext fun next => ih next)

theorem requireType_alike (alike : List.Forall₂ Declaration.Alike l l') :
    (forM l r.requireType : Except Fault Unit) = forM l' r.requireType := by
  induction alike with
  | nil => rfl
  | @cons d d' l l' first _ ih =>
    rw [List.forM_cons, List.forM_cons, ih, requireType, requireType, first.kind,
      first.qualifiedName]

end Registry

section Agreement

variable {s t : Snapshot}

/-- The relevant declarations of both programs are alike, one by one. -/
def Snapshot.Agrees (s t : Snapshot) : Prop :=
  List.Forall₂ Declaration.Alike (s.declarations.filter (·.isRelevant))
    (t.declarations.filter (·.isRelevant))

/-- Declarations of two programs that agree stay alike when they are chosen by what both show. -/
theorem Snapshot.Agrees.filter (agrees : s.Agrees t) {p : Declaration → Bool}
    (relevant : ∀ d, p d = true → d.isRelevant = true)
    (same : ∀ d d', d.Alike d' → p d = p d') :
    List.Forall₂ Declaration.Alike (s.declarations.filter p) (t.declarations.filter p) := by
  have chosen (l : List Declaration) : (l.filter (·.isRelevant)).filter p = l.filter p := by
    rw [List.filter_filter]
    refine List.filter_congr fun d _ => ?_
    by_cases passes : p d = true
    · simp [passes, relevant d passes]
    · simp [passes]
  have passes : ∀ ⦃d d'⦄, d.Alike d' → (p d = true ↔ p d' = true) := fun d d' alike => by
    rw [same d d' alike]
  rw [← chosen s.declarations, ← chosen t.declarations]
  exact List.rel_filter passes agrees

theorem Registry.isRelevant_of_isHeldBy {r : Registry} (member : r ∈ Registry.both)
    {d : Declaration} (held : r.isHeldBy d = true) : d.isRelevant = true := by
  have some_ : Registry.both.any (·.isHeldBy d) = true := List.any_eq_true.2 ⟨r, member, held⟩
  rw [Declaration.isRelevant, some_, Bool.or_true]

/-- Merging gives the same in two programs that agree, whatever the handles of the entry point. -/
theorem Registry.merge_agrees {r : Registry} (member : r ∈ Registry.both) (agrees : s.Agrees t)
    {h h' : Handle} {e e' : Declaration} (only : s.declarations.filter (·.hasMarker .plugin) = [e])
    (only' : t.declarations.filter (·.hasMarker .plugin) = [e'])
    (found : s.declarations[h]? = some e) (found' : t.declarations[h']? = some e')
    (alike : e.Alike e') : r.merge s.scanner h = r.merge t.scanner h' := by
  have relevant (d : Declaration) (held : r.isHeldBy d = true) : d.isRelevant = true :=
    isRelevant_of_isHeldBy member held
  have holders := agrees.filter relevant fun d d' alike => alike.holds r member
  have others := agrees.filter (p := fun d => r.isHeldBy d && !d.hasMarker .plugin)
    (fun d both => relevant d (Bool.and_eq_true_iff.1 both).1)
    fun d d' alike => by rw [alike.holds r member, alike.isEntry]
  rw [← List.filter_filter, ← List.filter_filter, ← eraseIdx_eq_filter only found,
    ← eraseIdx_eq_filter only' found'] at others
  have row := List.rel_append others (List.Forall₂.cons alike .nil)
  rw [merge_eq found, merge_eq found', requireType_alike holders, addAll_alike member row]

theorem EntryPoint.violation?_alike {e e' : Declaration} (alike : e.Alike e')
    (entry : e.hasMarker .plugin = true) : violation? e = violation? e' := by
  obtain ⟨enclosing, modifiers, _⟩ := alike.entry entry
  have topLevel : e.isTopLevel = e'.isTopLevel := by rw [Declaration.isTopLevel, enclosing]; rfl
  have modified (m : Modifier) : e.hasModifier m = e'.hasModifier m := by
    rw [Declaration.hasModifier, modifiers]; rfl
  simp only [violation?, alike.kind, topLevel, modified]

theorem assemble_of_several {defaultVersion : String}
    (several : 2 ≤ (s.declarations.filter (·.hasMarker .plugin)).length) :
    assemble s.scanner defaultVersion =
      .error (.multipleEntryPoints (s.declarations.filter (·.hasMarker .plugin)).length) := by
  have length := congrArg List.length (Snapshot.map_scan s .plugin)
  rw [List.length_map, List.length_map] at length
  rw [← length] at several ⊢
  unfold assemble
  generalize s.scanner.scan .plugin = candidates at several ⊢
  match candidates, several with
  | _ :: _ :: _, _ => rfl

/-- All parts of the descriptor are the same if they are read from entry points that are alike. -/
theorem Source.parts_agrees (agrees : s.Agrees t) {h h' : Handle} {e e' : Declaration}
    (only : s.declarations.filter (·.hasMarker .plugin) = [e])
    (only' : t.declarations.filter (·.hasMarker .plugin) = [e'])
    (known : s.scanner.declaration h = some e) (known' : t.scanner.declaration h' = some e')
    (alike : e.Alike e') (entry : e.hasMarker .plugin = true) (defaultVersion : String) :
    parts ⟨s.scanner, h, e, defaultVersion⟩ = parts ⟨t.scanner, h', e', defaultVersion⟩ := by
  obtain ⟨metadata, version⟩ := metadata_eq_of_metadata
    (s := ⟨s.scanner, h, e, defaultVersion⟩) (t := ⟨t.scanner, h', e', defaultVersion⟩)
    known known' alike.qualifiedName rfl (alike.entry entry).2.2
  have merged (r : Registry) (member : r ∈ Registry.both) :=
    Registry.merge_agrees member agrees only only' known known' alike
  simp only [parts, metadata, version, Registry.part, merged .commands (by simp [Registry.both]),
    merged .permissions (by simp [Registry.both])]

/-- Programs whose relevant declarations are alike have the same descriptor, or fail with the same
fault. -/
theorem assemble_agrees (agrees : s.Agrees t) (defaultVersion : String) :
    assemble s.scanner defaultVersion = assemble t.scanner defaultVersion := by
  have entries := agrees.filter (p := (·.hasMarker .plugin))
    (fun d marked => by rw [Declaration.isRelevant, marked, Bool.true_or])
    fun d d' alike => alike.isEntry
  have count := entries.length_eq
  rcases Nat.lt_or_ge 1 (s.declarations.filter (·.hasMarker .plugin)).length with several | few
  · rw [assemble_of_several several, assemble_of_several (count ▸ several), count]
  generalize only : s.declarations.filter (·.hasMarker .plugin) = chosen at entries few
  generalize only' : t.declarations.filter (·.hasMarker .plugin) = chosen' at entries
  match entries with
  | .nil =>
    have absent : assemble s.scanner defaultVersion = .ok none :=
      assemble_eq_none.2 (Snapshot.scan_eq_nil.2 (by simpa using only))
    have absent' : assemble t.scanner defaultVersion = .ok none :=
      assemble_eq_none.2 (Snapshot.scan_eq_nil.2 (by simpa using only'))
    rw [absent, absent']
  | .cons (a := e) (b := e') alike .nil =>
    have entry : e.hasMarker .plugin = true := by
      have member : e ∈ s.declarations.filter (·.hasMarker .plugin) := by simp [only]
      exact (List.mem_filter.1 member).2
    obtain ⟨h, scanned, known⟩ := Snapshot.scan_eq_singleton.2 only
    obtain ⟨h', scanned', known'⟩ := Snapshot.scan_eq_singleton.2 only'
    have parts := Source.parts_agrees agrees only only' known known' alike entry defaultVersion
    unfold assemble EntryPoint.choose
    rw [scanned, scanned']
    simp only [known, known', ← EntryPoint.violation?_alike alike entry, ← alike.qualifiedName]
    cases EntryPoint.violation? e with
    | some v => rfl
    | none => simp only [known, known', parts]
  | .cons _ (.cons _ _) => simp at few

end Agreement
end PluginDescriptor
