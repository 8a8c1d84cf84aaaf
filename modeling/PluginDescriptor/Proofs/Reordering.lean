import PluginDescriptor.Proofs.Relevance
import PluginDescriptor.Proofs.Schema

namespace PluginDescriptor

/-- The name in an annotation that declares a command or a permission. -/
def AnnotationValue.recordName? : AnnotationValue → Option String
  | .nested _ fields => (Entries.find? "name" fields).bind fun
    | .str t => some t
    | _ => none
  | _ => none

/-- The names of the commands, or of the permissions, that the declaration itself declares. -/
def Declaration.names (marker : Marker) (d : Declaration) : List String :=
  (d.records marker).filterMap AnnotationValue.recordName?

namespace Snapshot

/-- The entry point has the name, or at most one of the other declarations has it. -/
def Settles (s : Snapshot) (marker : Marker) (name : String) : Prop :=
  (∃ d ∈ s.declarations, d.hasMarker .plugin = true ∧ name ∈ d.names marker) ∨
    s.declarations.countP (fun d => !d.hasMarker .plugin && decide (name ∈ d.names marker)) ≤ 1

/-- Two maps of commands, or of permissions, that differ at most in the order of the names and in the
entries of names that several declarations share. -/
structure SameItems (s : Snapshot) (marker : Marker) (m n : Document) : Prop where
  names : ∀ name, name ∈ m.keys ↔ name ∈ n.keys
  entries : ∀ name, s.Settles marker name → m.get? name = n.get? name

/-- Two descriptors that differ at most within the commands and the permissions, and there as little
as `SameItems` says. -/
structure SameDescriptor (s : Snapshot) (d d' : Document) : Prop where
  keys : d.keys = d'.keys
  values : ∀ key, key ≠ "commands" → key ≠ "permissions" → d.get? key = d'.get? key
  commands : ∃ m m', d.get? "commands" = some (.ofMap m) ∧ d'.get? "commands" = some (.ofMap m') ∧
    s.SameItems .command m m'
  permissions : ∃ m m', d.get? "permissions" = some (.ofMap m) ∧
    d'.get? "permissions" = some (.ofMap m') ∧ s.SameItems .permission m m'

end Snapshot

/-- Both programs have no descriptor, both fail, or both have one and these are as `R` says. -/
inductive SameOutcome (R : Document → Document → Prop) :
    Except Fault (Option Document) → Except Fault (Option Document) → Prop where
  | skipped : SameOutcome R (.ok none) (.ok none)
  | failed (e f : Fault) : SameOutcome R (.error e) (.error f)
  | done {d d' : Document} (same : R d d') : SameOutcome R (.ok (some d)) (.ok (some d'))

theorem perm_eq_of_length_le_one {α : Type} {l m : List α} (perm : l.Perm m)
    (few : l.length ≤ 1) : l = m := by
  match l with
  | [] => exact perm.nil_eq
  | [a] => exact List.singleton_perm.1 perm
  | _ :: _ :: _ => simp at few

/-- Rows can be moved freely if at most one of them holds anything that passes. -/
theorem filter_flatMap_eq_of_perm {δ α : Type} {rows rows' : List δ} (perm : rows.Perm rows')
    (items : δ → List α) (p : α → Bool) (few : rows.countP (fun d => (items d).any p) ≤ 1) :
    (rows.flatMap items).filter p = (rows'.flatMap items).filter p := by
  have holding (l : List δ) : (l.flatMap items).filter p =
      (l.filter fun d => (items d).any p).flatMap fun d => (items d).filter p := by
    rw [List.filter_flatMap, flatMap_filter_of_eq_nil]
    intro d _ bare
    simpa using bare
  rw [List.countP_eq_length_filter] at few
  have same := perm_eq_of_length_le_one (perm.filter _) few
  rw [holding, holding, same]

theorem Command.field?_name {a : Annotation} {c : Command} (read : ofAnnotation a = .ok c) :
    a.field? "name" = some (.str c.name) := by
  simp only [bind_eq_ok, pure_eq_ok, ofAnnotation] at read
  obtain ⟨name, named, _, _, _, _, _, _, _, _, _, _, rfl⟩ := read
  exact Annotation.requiredText_eq_ok.1 named

theorem Permission.field?_name {a : Annotation} {p : Permission} (read : ofAnnotation a = .ok p) :
    a.field? "name" = some (.str p.name) := by
  simp only [bind_eq_ok, pure_eq_ok, ofAnnotation] at read
  obtain ⟨_, _, _, _, _, _, name, named, _, _, rfl⟩ := read
  exact Annotation.requiredText_eq_ok.1 named

namespace Registry

/-- The container is that of the single marker, and an item has the name that its annotation has. -/
structure Lawful (r : Registry) : Prop where
  held : r.single.container? = some r.container
  named : ∀ a key v, r.item a = .ok (key, v) → a.toValue.recordName? = some key

theorem recordName?_of_field {a : Annotation} {t : String}
    (set : a.field? "name" = some (.str t)) : a.toValue.recordName? = some t := by
  unfold Annotation.field? at set
  simp only [AnnotationValue.recordName?, Annotation.toValue, set, Option.bind_some]

theorem commands_lawful : commands.Lawful := by
  refine ⟨rfl, fun a key v item => ?_⟩
  simp only [commands, bind_eq_ok, pure_eq_ok] at item
  obtain ⟨c, read, same⟩ := item
  cases same
  exact recordName?_of_field (Command.field?_name read)

theorem permissions_lawful : permissions.Lawful := by
  refine ⟨rfl, fun a key v item => ?_⟩
  simp only [permissions, bind_eq_ok, pure_eq_ok] at item
  obtain ⟨p, read, same⟩ := item
  cases same
  exact recordName?_of_field (Permission.field?_name read)

/-- The items that one declaration holds, none if they cannot be read. -/
def itemsOn (r : Registry) (d : Declaration) : List (String × Value) :=
  match d.instances r.single >>= fun l => l.mapM r.item with
  | .ok items => items
  | .error _ => []

theorem itemsOn_eq {r : Registry} {d : Declaration} {items : List (String × Value)}
    (read : ReadAs r.single r.item (d.records r.single) items) : r.itemsOn d = items := by
  rw [← Declaration.instances_mapM_eq_ok] at read
  unfold itemsOn
  rw [read]

/-- Items of several declarations, read in one row, are those of each of them. -/
theorem readAs_flatMap {r : Registry} {l : List Declaration} {items : List (String × Value)}
    (read : ReadAs r.single r.item (l.flatMap (Declaration.records r.single)) items) :
    items = l.flatMap r.itemsOn ∧
      ∀ d ∈ l, ReadAs r.single r.item (d.records r.single) (r.itemsOn d) := by
  induction l generalizing items with
  | nil => exact ⟨readAs_nil.1 read, by simp⟩
  | cons d rest ih =>
    rw [List.flatMap_cons, readAs_append] at read
    obtain ⟨first, later, readFirst, readLater, rfl⟩ := read
    have here := itemsOn_eq readFirst
    obtain ⟨split, others⟩ := ih readLater
    rw [List.flatMap_cons, here, ← split]
    refine ⟨rfl, List.forall_mem_cons.2 ⟨?_, others⟩⟩
    rwa [here]

theorem Lawful.keys_itemsOn {r : Registry} (lawful : r.Lawful) {d : Declaration}
    (read : ReadAs r.single r.item (d.records r.single) (r.itemsOn d)) :
    Entries.keys (r.itemsOn d) = d.names r.single := by
  obtain ⟨l, records, marked, run⟩ := read
  rw [Declaration.names, records]
  clear records marked
  rw [mapM_eq_ok] at run
  generalize r.itemsOn d = items at run
  induction run with
  | nil => rfl
  | @cons a e _ _ first _ ih =>
    have name := lawful.named a e.1 e.2 first
    rw [List.map_cons, List.filterMap_cons_some name, Entries.keys_cons, ih]

end Registry

theorem Snapshot.cons_eraseIdx_perm {s : Snapshot} {h : Handle} {e : Declaration}
    (found : s.declarations[h]? = some e) :
    (e :: s.declarations.eraseIdx h).Perm s.declarations := by
  obtain ⟨inside, rfl⟩ := List.getElem?_eq_some_iff.1 found
  exact List.getElem_cons_eraseIdx_perm inside

/-- The declarations beside the entry point, in both orders. -/
theorem Snapshot.eraseIdx_perm {s t : Snapshot} (perm : s.declarations.Perm t.declarations)
    {h h' : Handle} {e : Declaration} (found : s.declarations[h]? = some e)
    (found' : t.declarations[h']? = some e) :
    (s.declarations.eraseIdx h).Perm (t.declarations.eraseIdx h') := by
  have whole := cons_eraseIdx_perm found
  have whole' := cons_eraseIdx_perm found'
  exact ((whole.trans perm).trans whole'.symm).cons_inv

/-- For a name that the entry point does not have, only the other declarations count. -/
theorem Snapshot.Settles.few {s : Snapshot} {marker : Marker} {name : String}
    (settles : s.Settles marker name) {h : Handle} {e : Declaration}
    (only : s.declarations.filter (·.hasMarker .plugin) = [e])
    (found : s.declarations[h]? = some e) (foreign : name ∉ e.names marker) :
    (s.declarations.eraseIdx h).countP (fun d => decide (name ∈ d.names marker)) ≤ 1 := by
  have whole := cons_eraseIdx_perm found
  -- The one declaration with the marker is the entry point, so none of the others carries it.
  have chosen : e ∈ s.declarations.filter (·.hasMarker .plugin) := by simp [only]
  have entry : e.hasMarker .plugin = true := (List.mem_filter.1 chosen).2
  have others : (s.declarations.eraseIdx h).filter (·.hasMarker .plugin) = [] := by
    have again := whole.filter (·.hasMarker .plugin)
    rw [only, List.filter_cons, if_pos entry] at again
    exact (List.cons.inj (List.perm_singleton.1 again)).2
  rw [List.filter_eq_nil_iff] at others
  rcases settles with ⟨d, member, marked, declares⟩ | few
  · have chosen : d ∈ s.declarations.filter (·.hasMarker .plugin) :=
      List.mem_filter.2 ⟨member, marked⟩
    rw [only, List.mem_singleton] at chosen
    exact absurd (chosen ▸ declares) foreign
  · rw [← whole.countP_eq, List.countP_cons] at few
    refine le_trans (Nat.le_of_eq ?_) (Nat.le_of_add_right_le few)
    refine List.countP_congr fun d member => ?_
    simp [others d member]

namespace Registry

/-- Merging in another order gives the same names, and the same entries where the order does not
matter. -/
theorem Lawful.sameItems {r : Registry} (lawful : r.Lawful) {s t : Snapshot}
    (perm : s.declarations.Perm t.declarations) {h h' : Handle} {e : Declaration}
    (only : s.declarations.filter (·.hasMarker .plugin) = [e])
    (found : s.declarations[h]? = some e) (found' : t.declarations[h']? = some e)
    {m n : Document} (run : r.merge s.scanner h = .ok m) (run' : r.merge t.scanner h' = .ok n) :
    s.SameItems r.single m n := by
  obtain ⟨_, external, own, beside, ofEntry, rfl⟩ := (merge_eq_ok lawful.held).1 run
  obtain ⟨_, external', own', beside', ofEntry', rfl⟩ := (merge_eq_ok lawful.held).1 run'
  simp only [Scanner.records, Snapshot.scanner, found, found', Option.elim_some] at ofEntry ofEntry'
  cases readAs_unique ofEntry ofEntry'
  obtain ⟨rfl, readable⟩ := readAs_flatMap beside
  obtain ⟨rfl, _⟩ := readAs_flatMap beside'
  have others := Snapshot.eraseIdx_perm perm found found'
  have entryNames : Entries.keys own = e.names r.single := by
    have items := itemsOn_eq ofEntry
    rw [← items] at ofEntry ⊢
    exact lawful.keys_itemsOn ofEntry
  refine ⟨fun name => ?_, fun name settles => ?_⟩
  · have rows := (others.flatMap_right r.itemsOn).append_right own
    simp only [OrderedMap.mem_keys_ofList, rows.mem_iff]
  · -- A name of the entry point's own is settled by the end of the row. Any other stands in at most
    -- one of the rows before, wherever this is.
    by_cases declares : name ∈ e.names r.single
    · rw [← entryNames] at declares
      rw [OrderedMap.get?_ofList_append_of_mem declares,
        OrderedMap.get?_ofList_append_of_mem declares]
    · have few := settles.few only found declares
      have same := filter_flatMap_eq_of_perm others r.itemsOn (·.1 = name) <| by
        refine le_trans (Nat.le_of_eq (List.countP_congr fun d member => ?_)) few
        rw [decide_eq_true_eq, ← lawful.keys_itemsOn (readable d member), Entries.keys]
        simp
      rw [OrderedMap.get?_ofList, OrderedMap.get?_ofList, List.filter_append, List.filter_append,
        same]

end Registry

/-- What two entry points give that are the same declaration of one program in two orders. -/
theorem sameDescriptor_of_given {s t : Snapshot} (perm : s.declarations.Perm t.declarations)
    {h h' : Handle} {e : Declaration} {defaultVersion : String}
    (only : s.declarations.filter (·.hasMarker .plugin) = [e])
    (found : s.scanner.declaration h = some e) (found' : t.scanner.declaration h' = some e)
    {given given' : List (Option (String × Value))}
    (read : (Source.parts ⟨s.scanner, h, e, defaultVersion⟩).mapM id = .ok given)
    (read' : (Source.parts ⟨t.scanner, h', e, defaultVersion⟩).mapM id = .ok given') :
    s.SameDescriptor (.ofList (given.flatMap Option.toList))
      (.ofList (given'.flatMap Option.toList)) := by
  have nodup := Source.given_nodup _ read
  have nodup' := Source.given_nodup _ read'
  obtain ⟨metadata, commands, permissions, version, saidFirst, first, second, asked, rfl⟩ :=
    Source.parts_eq_ok.1 read
  obtain ⟨metadata', commands', permissions', version', said, first', second', asked', rfl⟩ :=
    Source.parts_eq_ok.1 read'
  obtain ⟨sameMetadata, sameVersion⟩ := Source.metadata_eq_of_metadata
    (s := ⟨s.scanner, h, e, defaultVersion⟩) (t := ⟨t.scanner, h', e, defaultVersion⟩)
    found found' rfl rfl rfl
  rw [sameMetadata, said] at saidFirst
  rw [sameVersion, asked'] at asked
  cases saidFirst
  cases asked
  have commandItems := Registry.commands_lawful.sameItems perm only found found' first first'
  have permissionItems :=
    Registry.permissions_lawful.sameItems perm only found found' second second'
  refine ⟨?_, fun key apart apart' => ?_, ⟨commands, commands', ?_, ?_, commandItems⟩,
    ⟨permissions, permissions', ?_, ?_, permissionItems⟩⟩
  · simp only [OrderedMap.keys_ofList, List.flatMap_append, List.map_append, List.flatMap_cons,
      Option.toList_some, List.map_cons]
  · simp [OrderedMap.get?_ofList, Ne.symm apart, Ne.symm apart']
  · exact OrderedMap.get?_ofList_of_mem nodup (by simp)
  · exact OrderedMap.get?_ofList_of_mem nodup' (by simp)
  · exact OrderedMap.get?_ofList_of_mem nodup (by simp)
  · exact OrderedMap.get?_ofList_of_mem nodup' (by simp)

/-- If a program has a descriptor, it has one in every other order, and this differs as little as
`SameDescriptor` says. -/
theorem exists_assemble_of_perm {s t : Snapshot} (perm : s.declarations.Perm t.declarations)
    {defaultVersion : String} {doc : Document}
    (run : assemble s.scanner defaultVersion = .ok (some doc)) :
    ∃ doc', assemble t.scanner defaultVersion = .ok (some doc') ∧ s.SameDescriptor doc doc' := by
  obtain ⟨h, e, chosen, found, given, read, rfl⟩ := assemble_eq_given.1 run
  obtain ⟨scanned, d, known, fit⟩ := EntryPoint.choose_eq_some.1 chosen
  cases known.symm.trans found
  have only := Snapshot.scan_eq_singleton.1 ⟨h, scanned, found⟩
  have only' : t.declarations.filter (·.hasMarker .plugin) = [e] := by
    have again := perm.filter (·.hasMarker .plugin)
    rw [only] at again
    exact (List.singleton_perm.1 again).symm
  obtain ⟨h', scanned', found'⟩ := Snapshot.scan_eq_singleton.2 only'
  obtain ⟨said, holders⟩ := (succeeds_parts found).1 (succeeds_mapM.1 ⟨given, read⟩)
  have holders' : ∀ d ∈ t.declarations, d.HoldsItems := fun d member =>
    holders d (perm.mem_iff.2 member)
  have readable' : ∀ p ∈ Source.parts ⟨t.scanner, h', e, defaultVersion⟩, Succeeds p :=
    (succeeds_parts found').2 ⟨said, holders'⟩
  obtain ⟨given', read'⟩ := succeeds_mapM.2 readable'
  have chosen' := EntryPoint.choose_eq_some.2 ⟨scanned', e, found', fit⟩
  exact ⟨_, assemble_eq_given.2 ⟨h', e, chosen', found', given', read', rfl⟩,
    sameDescriptor_of_given perm only found found' read read'⟩

/-- The order of the declarations of a program only matters for the names that several declarations
beside the entry point declare. -/
theorem assemble_perm {s t : Snapshot} (perm : s.declarations.Perm t.declarations) (o : Options) :
    SameOutcome s.SameDescriptor (assemble s.scanner o.defaultVersion)
      (assemble t.scanner o.defaultVersion) := by
  have skips : assemble s.scanner o.defaultVersion = .ok none ↔
      assemble t.scanner o.defaultVersion = .ok none := by
    rw [assemble_eq_none, assemble_eq_none, Snapshot.scan_eq_nil, Snapshot.scan_eq_nil]
    simp only [perm.mem_iff]
  cases first : assemble s.scanner o.defaultVersion with
  | ok result =>
    cases result with
    | none =>
      rw [skips.1 first]
      exact .skipped
    | some doc =>
      obtain ⟨doc', second, same⟩ := exists_assemble_of_perm perm first
      rw [second]
      exact .done same
  | error e =>
    cases second : assemble t.scanner o.defaultVersion with
    | error f => exact .failed e f
    | ok result =>
      cases result with
      | none =>
        rw [skips.2 second] at first
        cases first
      | some doc =>
        obtain ⟨_, again, _⟩ := exists_assemble_of_perm perm.symm second
        rw [again] at first
        cases first

/-- A program in which two declarations beside the entry point share the command `fly`. -/
def Snapshot.crowded : Snapshot where
  declarations :=
    [{ qualifiedName := "demo.Wing", kind := .enumType, enclosing := .package "demo",
       annotations := [⟨.command, [("name", .str "fly"), ("usage", .str "/fly wing")]⟩,
        ⟨.command, [("name", .str "home"), ("usage", .str "/home wing")]⟩] },
      { qualifiedName := "demo.Main", kind := .classType, enclosing := .package "demo",
        annotations := [⟨.plugin, []⟩, ⟨.command, [("name", .str "home")]⟩] },
      { qualifiedName := "demo.Jet", kind := .classType, enclosing := .type "demo.Main",
        annotations := [⟨.command, [("name", .str "land"), ("aliases", .str "l")]⟩,
          ⟨.command, [("name", .str "fly"), ("usage", .str "/fly jet")]⟩] }]

theorem assemble_perm_crowded :
    Snapshot.crowded.declarations.Perm Snapshot.crowded.declarations.reverse ∧
    ∃ doc doc' : Document,
      doc.entries = [("main", .str "demo.Main"), ("name", .str "Main"), ("version", .str "v0.0"),
        ("commands", .map [("fly", .map [("usage", .str "/fly jet")]), ("home", .map []),
          ("land", .map [("aliases", .str "l")])]), ("permissions", .map [])] ∧
      doc'.entries = [("main", .str "demo.Main"), ("name", .str "Main"), ("version", .str "v0.0"),
        ("commands", .map [("land", .map [("aliases", .str "l")]),
          ("fly", .map [("usage", .str "/fly wing")]), ("home", .map [])]),
        ("permissions", .map [])] ∧
      assemble Snapshot.crowded.scanner ({} : Options).defaultVersion = .ok (some doc) ∧
      assemble (Snapshot.scanner ⟨Snapshot.crowded.declarations.reverse⟩)
        ({} : Options).defaultVersion = .ok (some doc') ∧
      SameOutcome Snapshot.crowded.SameDescriptor (.ok (some doc)) (.ok (some doc')) := by
  have perm := (List.reverse_perm Snapshot.crowded.declarations).symm
  exact ⟨perm, { entries := _, nodup_keys := by decide }, { entries := _, nodup_keys := by decide },
    rfl, rfl, rfl, rfl,
    assemble_perm (t := ⟨Snapshot.crowded.declarations.reverse⟩) perm {}⟩

end PluginDescriptor
