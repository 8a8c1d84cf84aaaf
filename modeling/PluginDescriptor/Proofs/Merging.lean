import Mathlib.Data.List.Sort
import PluginDescriptor.Proofs.OrderedMap
import PluginDescriptor.Proofs.Records
import PluginDescriptor.Registry

namespace PluginDescriptor

/-- Elements for which there is nothing can be left out first. -/
theorem flatMap_filter_of_eq_nil {α β : Type} {p : α → Bool} {f : α → List β} {l : List α}
    (idle : ∀ a ∈ l, p a = false → f a = []) : (l.filter p).flatMap f = l.flatMap f := by
  induction l with
  | nil => rfl
  | cons a r ih =>
    rw [List.forall_mem_cons] at idle
    rw [List.filter_cons, List.flatMap_cons, ← ih idle.2]
    cases kept : p a with
    | true => simp
    | false => simp [idle.1 kept]

theorem flatMap_range_getElem? {α β : Type} (f : α → List β) (l : List α) :
    (List.range l.length).flatMap (fun i => l[i]?.elim [] f) = l.flatMap f := by
  induction l with
  | nil => rfl
  | cons a r ih =>
    rw [List.length_cons, List.range_succ_eq_map, List.flatMap_cons, List.flatMap_cons,
      List.flatMap_map, ← ih]
    rfl

/-- Going through all positions but one is going through the list without that element. -/
theorem flatMap_range_ne {α β : Type} (f : α → List β) (l : List α) (k : Nat) :
    ((List.range l.length).filter (· != k)).flatMap (fun i => l[i]?.elim [] f) =
      (l.eraseIdx k).flatMap f := by
  induction l generalizing k with
  | nil => rfl
  | cons a r ih =>
    rw [List.length_cons, List.range_succ_eq_map, List.filter_cons, List.filter_map]
    cases k with
    | zero =>
      have all : ((· != 0) ∘ Nat.succ) = fun _ : Nat => true := by funext i; simp
      rw [all, List.filter_true, List.eraseIdx_cons_zero, ← flatMap_range_getElem? f r]
      simp [List.flatMap_map]
    | succ k =>
      have shift : ((· != k + 1) ∘ Nat.succ) = (· != k) := by funext i; simp
      rw [shift, List.eraseIdx_cons_succ, List.flatMap_cons, ← ih k]
      simp [List.flatMap_map]

namespace Snapshot

theorem mem_positions {marker : Marker} {start : Nat} {l : List Declaration} {h : Nat} :
    h ∈ positions marker start l ↔
      ∃ i d, h = start + i ∧ l[i]? = some d ∧ d.hasMarker marker = true := by
  induction l generalizing start with
  | nil => simp [positions]
  | cons d r ih =>
    have tail : (∃ i e, h = start + i ∧ (d :: r)[i]? = some e ∧ e.hasMarker marker = true) ↔
        h = start ∧ d.hasMarker marker = true ∨ h ∈ positions marker (start + 1) r := by
      rw [ih]
      constructor
      · rintro ⟨i, e, place, at_, marked⟩
        cases i with
        | zero =>
          cases Option.some.inj at_
          exact Or.inl ⟨place, marked⟩
        | succ i => exact Or.inr ⟨i, e, by omega, by simpa using at_, marked⟩
      · rintro (⟨place, marked⟩ | ⟨i, e, place, at_, marked⟩)
        · exact ⟨0, d, place, rfl, marked⟩
        · exact ⟨i + 1, e, by omega, by simpa using at_, marked⟩
    rw [tail, positions]
    split
    · next marked => simp [marked]
    · next bare => simp [bare]

/-- A snapshot finds exactly the positions of the declarations that carry the marker. -/
theorem mem_scan {s : Snapshot} {marker : Marker} {h : Handle} :
    h ∈ s.scanner.scan marker ↔
      ∃ d, s.declarations[h]? = some d ∧ d.hasMarker marker = true := by
  simp [scanner, mem_positions]

/-- The declarations that are found are those that carry the marker, each as often as it occurs. -/
theorem map_scan (s : Snapshot) (marker : Marker) :
    (s.scanner.scan marker).map s.scanner.declaration =
      (s.declarations.filter (·.hasMarker marker)).map some := by
  suffices shifted : ∀ before after : List Declaration,
      (positions marker before.length after).map ((before ++ after)[·]?) =
        (after.filter (·.hasMarker marker)).map some from shifted [] s.declarations
  intro before after
  induction after generalizing before with
  | nil => rfl
  | cons d r ih =>
    have rest := ih (before ++ [d])
    rw [List.length_append, List.append_assoc] at rest
    rw [positions, List.filter_cons]
    split
    · next marked => simpa [marked] using rest
    · next bare => simpa [bare] using rest

theorem scan_eq_nil {s : Snapshot} {marker : Marker} :
    s.scanner.scan marker = [] ↔ ∀ d ∈ s.declarations, d.hasMarker marker = false := by
  have none : s.scanner.scan marker = [] ↔ s.declarations.filter (·.hasMarker marker) = [] := by
    rw [← List.map_eq_nil_iff (f := s.scanner.declaration), map_scan, List.map_eq_nil_iff]
  simp [none]

/-- Exactly one declaration is found if exactly one carries the marker. -/
theorem scan_eq_singleton {s : Snapshot} {marker : Marker} {d : Declaration} :
    (∃ h, s.scanner.scan marker = [h] ∧ s.scanner.declaration h = some d) ↔
      s.declarations.filter (·.hasMarker marker) = [d] := by
  have found := map_scan s marker
  constructor
  · rintro ⟨h, only, known⟩
    rw [only, List.map_singleton, known] at found
    exact List.map_injective_iff.2 (Option.some_injective _) found.symm
  · intro only
    rw [only, List.map_singleton, List.map_eq_singleton_iff] at found
    exact found

/-- The records of a marker on all declarations but one, in the order of the
declarations. -/
def recordsBeside (s : Snapshot) (entry : Handle) (marker : Marker) : List AnnotationValue :=
  (s.declarations.eraseIdx entry).flatMap (Declaration.records marker)

end Snapshot

/-- The records of a marker on one declaration; an unknown declaration has none. -/
def Scanner.records (s : Scanner) (h : Handle) (marker : Marker) : List AnnotationValue :=
  (s.declaration h).elim [] (Declaration.records marker)

namespace Registry

theorem mem_insertAscending {h g : Handle} {l : List Handle} :
    g ∈ insertAscending h l ↔ g = h ∨ g ∈ l := by
  induction l with
  | nil => simp [insertAscending]
  | cons f r ih =>
    unfold insertAscending
    split
    · simp
    · split
      · next same => simp [same]
      · rw [List.mem_cons, ih, List.mem_cons, or_left_comm]

theorem pairwise_insertAscending {h : Nat} {l : List Nat} (sorted : l.Pairwise (· < ·)) :
    (insertAscending h l).Pairwise (· < ·) := by
  induction l with
  | nil => simp [insertAscending]
  | cons f r ih =>
    obtain ⟨least, rest⟩ := List.pairwise_cons.1 sorted
    unfold insertAscending
    split
    · next before =>
      refine List.pairwise_cons.2 ⟨fun g member => ?_, sorted⟩
      rcases List.mem_cons.1 member with rfl | member
      · exact before
      · exact before.trans (least g member)
    · next late =>
      split
      · exact sorted
      · next other =>
        refine List.pairwise_cons.2 ⟨fun g member => ?_, ih rest⟩
        rcases mem_insertAscending.1 member with rfl | member
        · exact Nat.lt_of_le_of_ne (Nat.not_lt.1 late) (Ne.symm other)
        · exact least g member

theorem mem_ascending {h : Handle} {l : List Handle} : h ∈ ascending l ↔ h ∈ l := by
  induction l with
  | nil => simp [ascending]
  | cons g r ih =>
    change h ∈ insertAscending g (ascending r) ↔ _
    rw [mem_insertAscending, ih, List.mem_cons]

theorem pairwise_ascending (l : List Handle) : (ascending l).Pairwise (· < ·) := by
  induction l with
  | nil => exact .nil
  | cons g r ih => exact pairwise_insertAscending ih

/-- Handles below a bound, sorted, are the part of all handles below the bound. -/
theorem ascending_eq_filter {l : List Handle} {bound : Nat} (below : ∀ h ∈ l, h < bound) :
    ascending l = (List.range bound).filter (· ∈ l) := by
  refine (pairwise_ascending l).eq_of_mem_iff (List.pairwise_lt_range.filter _) fun h => ?_
  rw [mem_ascending, List.mem_filter, List.mem_range, decide_eq_true_eq]
  exact ⟨fun member => ⟨below h member, member⟩, And.right⟩

/-- The check of the holders passes all of them on. -/
theorem checkedHolders_eq_ok {r : Registry} {s : Scanner} {holders : List Handle}
    (run : r.checkedHolders s = .ok holders) :
    holders = ascending (s.scan r.container ++ s.scan r.single) := by
  unfold checkedHolders at run
  rw [mapM_eq_ok] at run
  generalize ascending (s.scan r.container ++ s.scan r.single) = handles at run
  induction run with
  | nil => rfl
  | @cons h g _ _ first _ ih =>
    rw [ih]
    split at first
    · cases first
    · split at first
      · cases first; rfl
      · cases first

theorem itemsOf_eq_ok {r : Registry} {s : Scanner} {h : Handle} {m : Document} :
    r.itemsOf s h = .ok m ↔
      ∃ items, ReadAs r.single r.item (s.records h r.single) items ∧ m = .ofList items := by
  have known : (s.instances h r.single >>= fun l => l.mapM r.item) =
      (s.declaration h).elim (.ok []) fun d =>
        d.instances r.single >>= fun l => l.mapM r.item := by
    unfold Scanner.instances
    cases s.declaration h <;> rfl
  have read (items : List (String × Value)) :
      (s.instances h r.single >>= fun l => l.mapM r.item) = .ok items ↔
        ReadAs r.single r.item (s.records h r.single) items := by
    rw [known]
    unfold Scanner.records
    cases s.declaration h with
    | none =>
      rw [Option.elim_none, Option.elim_none, readAs_nil, Except.ok.injEq]
      exact eq_comm
    | some d => exact Declaration.instances_mapM_eq_ok
  simp only [itemsOf, ← read, bind_eq_ok, pure_eq_ok]
  grind

/-- Adding the maps of several declarations one after the other is inserting the items of all of
them in one row. -/
theorem foldlM_extend_eq_ok {r : Registry} {s : Scanner} {handles : List Handle}
    {start m : Document} :
    handles.foldlM (fun merged h => do return merged.extend (← r.itemsOf s h)) start = .ok m ↔
      ∃ items, ReadAs r.single r.item (handles.flatMap (s.records · r.single)) items ∧
        m = start.insertAll items := by
  induction handles generalizing start with
  | nil =>
    simp only [List.foldlM_nil, pure_eq_ok, List.flatMap_nil, readAs_nil, exists_eq_left,
      OrderedMap.insertAll_nil]
    exact eq_comm
  | cons h rest ih =>
    simp only [List.foldlM_cons, bind_eq_ok, itemsOf_eq_ok, ih, List.flatMap_cons, readAs_append,
      pure_eq_ok]
    constructor
    · rintro ⟨_, ⟨_, ⟨items, parsed, rfl⟩, rfl⟩, others, later, rfl⟩
      refine ⟨items ++ others, ⟨items, others, parsed, later, rfl⟩, ?_⟩
      rw [OrderedMap.extend_ofList, OrderedMap.insertAll_append]
    · rintro ⟨_, ⟨items, others, parsed, later, rfl⟩, rfl⟩
      refine ⟨_, ⟨_, ⟨items, parsed, rfl⟩, rfl⟩, others, later, ?_⟩
      rw [OrderedMap.extend_ofList, OrderedMap.insertAll_append]

/-- The holders of a snapshot without the entry point hold all records beside the entry point. -/
theorem flatMap_holders {r : Registry} (held : r.single.container? = some r.container)
    (s : Snapshot) (entry : Handle) :
    ((ascending (s.scanner.scan r.container ++ s.scanner.scan r.single)).filter (· != entry)).flatMap
        (s.scanner.records · r.single) = s.recordsBeside entry r.single := by
  generalize found : s.scanner.scan r.container ++ s.scanner.scan r.single = handles
  have isHolder (h : Handle) : h ∈ handles ↔ ∃ d, s.declarations[h]? = some d ∧
      (d.hasMarker r.container = true ∨ d.hasMarker r.single = true) := by
    rw [← found, List.mem_append, Snapshot.mem_scan, Snapshot.mem_scan]
    grind
  have below : ∀ h ∈ handles, h < s.declarations.length := fun h member =>
    have ⟨_, at_, _⟩ := (isHolder h).1 member
    (List.getElem?_eq_some_iff.1 at_).1
  have idle (h : Handle) (apart : h ∉ handles) : s.scanner.records h r.single = [] := by
    unfold Scanner.records
    cases at_ : s.scanner.declaration h with
    | none => rfl
    | some d =>
      have bare := fun marked => apart ((isHolder h).2 ⟨d, at_, marked⟩)
      simp only [not_or, Bool.not_eq_true, imp_false] at bare
      refine Declaration.records_eq_nil bare.2 fun c isContainer => ?_
      rw [held] at isContainer
      cases isContainer
      exact bare.1
  rw [ascending_eq_filter below, List.filter_comm, flatMap_filter_of_eq_nil]
  · exact flatMap_range_ne (Declaration.records r.single) s.declarations entry
  · intro h _ apart
    exact idle h (by simpa using apart)

/-- Merging checks the holders, reads the records beside the entry point and then its own, and inserts
one after the other. -/
theorem merge_eq_ok {r : Registry} (held : r.single.container? = some r.container)
    {s : Snapshot} {entry : Handle} {merged : Document} :
    r.merge s.scanner entry = .ok merged ↔
      Succeeds (r.checkedHolders s.scanner) ∧
        ∃ external own, ReadAs r.single r.item (s.recordsBeside entry r.single) external ∧
          ReadAs r.single r.item (s.scanner.records entry r.single) own ∧
          merged = .ofList (external ++ own) := by
  have row (holders : List Handle) (checked : r.checkedHolders s.scanner = .ok holders) :
      (holders.filter (· != entry) ++ [entry]).flatMap (s.scanner.records · r.single) =
        s.recordsBeside entry r.single ++ s.scanner.records entry r.single := by
    rw [List.flatMap_append, checkedHolders_eq_ok checked, flatMap_holders held,
      List.flatMap_singleton]
  simp only [merge, bind_eq_ok, foldlM_extend_eq_ok]
  constructor
  · rintro ⟨holders, checked, items, parsed, rfl⟩
    rw [row holders checked, readAs_append] at parsed
    obtain ⟨external, own, beside, ofEntry, rfl⟩ := parsed
    exact ⟨⟨holders, checked⟩, external, own, beside, ofEntry, rfl⟩
  · rintro ⟨⟨holders, checked⟩, external, own, beside, ofEntry, rfl⟩
    refine ⟨holders, checked, external ++ own, ?_, rfl⟩
    rw [row holders checked, readAs_append]
    exact ⟨external, own, beside, ofEntry, rfl⟩

/-- The map is what a row of items says: a name stands where it came first, and under it is the entry
of the last item of that name. Items of `own` come after those of `external`. -/
structure Flattened {ι : Type} (name : ι → String) (entry : ι → Document) (external own : List ι)
    (merged : Document) : Prop where
  keys : merged.keys = ((external ++ own).map name).eraseDups
  value : ∀ key, merged.get? key =
    ((external ++ own).filter (name · = key)).getLast?.map fun c => .ofMap (entry c)
  /-- A name that `own` has is never left to `external`. -/
  ownWins : ∀ c ∈ own, ∃ last ∈ own, name last = name c ∧
    merged.get? (name c) = some (.ofMap (entry last))

theorem flattened_ofList {ι : Type} (name : ι → String) (entry : ι → Document)
    (external own : List ι) :
    Flattened name entry external own
      (.ofList ((external ++ own).map fun c => (name c, .ofMap (entry c)))) := by
  have value (key : String) :
      (OrderedMap.ofList ((external ++ own).map fun c => (name c, Value.ofMap (entry c)))).get? key =
        ((external ++ own).filter (name · = key)).getLast?.map fun c => .ofMap (entry c) := by
    rw [OrderedMap.get?_ofList, List.filter_map, List.getLast?_map, Option.map_map]
    rfl
  refine ⟨?_, value, fun c member => ?_⟩
  · rw [OrderedMap.keys_ofList, List.map_map]
    rfl
  · have named : own.filter (name · = name c) ≠ [] :=
      List.ne_nil_of_mem (List.mem_filter.2 ⟨member, by simp⟩)
    have last := List.getLast_mem named
    rw [List.mem_filter, decide_eq_true_eq] at last
    refine ⟨_, last.1, last.2, ?_⟩
    rw [value, List.filter_append, List.getLast?_append, List.getLast?_eq_some_getLast named]
    rfl

/-- What merging comes to if every item has a name and an entry. -/
theorem merge_flattened_of_item {r : Registry} (held : r.single.container? = some r.container)
    {ι : Type} {read : Annotation → Except Fault ι} {name : ι → String} {entry : ι → Document}
    (item : r.item = fun a => do
      let c ← read a
      return (name c, .ofMap (entry c)))
    {s : Snapshot} {h : Handle} {merged : Document} (run : r.merge s.scanner h = .ok merged) :
    ∃ external own, ReadAs r.single read (s.recordsBeside h r.single) external ∧
      ReadAs r.single read (s.scanner.records h r.single) own ∧
      Flattened name entry external own merged := by
  obtain ⟨_, _, _, beside, ofEntry, rfl⟩ := (merge_eq_ok held).1 run
  rw [item] at beside ofEntry
  obtain ⟨external, readBeside, rfl⟩ := readAs_bind_pure.1 beside
  obtain ⟨own, readOwn, rfl⟩ := readAs_bind_pure.1 ofEntry
  refine ⟨external, own, readBeside, readOwn, ?_⟩
  rw [← List.map_append]
  exact flattened_ofList name entry external own

/-- The merged commands are those of one row of records: the records of all declarations beside the
entry point in their order, then the entry point's own. So are the merged permissions. -/
theorem merge_flattened (s : Snapshot) (entry : Handle) :
    (∀ merged, commands.merge s.scanner entry = .ok merged →
      ∃ external own,
        ReadAs .command Command.ofAnnotation (s.recordsBeside entry .command) external ∧
        ReadAs .command Command.ofAnnotation (s.scanner.records entry .command) own ∧
        Flattened Command.name Command.entry external own merged) ∧
    (∀ merged, permissions.merge s.scanner entry = .ok merged →
      ∃ external own,
        ReadAs .permission Permission.ofAnnotation (s.recordsBeside entry .permission) external ∧
        ReadAs .permission Permission.ofAnnotation (s.scanner.records entry .permission) own ∧
        Flattened Permission.name Permission.entry external own merged) :=
  ⟨fun _ run => merge_flattened_of_item (r := commands) rfl rfl run,
    fun _ run => merge_flattened_of_item (r := permissions) rfl rfl run⟩

/-- A program whose entry point comes first and shares a command with a later declaration. -/
def clash : Snapshot where
  declarations :=
    [{ qualifiedName := "demo.Main", kind := .classType, enclosing := .package "demo",
       annotations :=
        [⟨.plugin, []⟩, ⟨.command, [("name", .str "fly"), ("aliases", .str "f")]⟩,
          ⟨.permissions, [("value", .nested .permission [("name", .str "demo.fly")])]⟩] },
      { qualifiedName := "demo.Land", kind := .classType, enclosing := .package "demo",
        annotations :=
          [⟨.commands, [("value", .array
            [.nested .command [("name", .str "land")],
              .nested .command [("name", .str "fly"), ("usage", .str "/fly")]])]⟩] }]

theorem merge_flattened_clash :
    (∃ merged : Document,
      merged.entries = [("land", .map []), ("fly", .map [("aliases", .str "f")])] ∧
      commands.merge clash.scanner 0 = .ok merged ∧
      ∃ external own,
        ReadAs .command Command.ofAnnotation (clash.recordsBeside 0 .command) external ∧
        ReadAs .command Command.ofAnnotation (clash.scanner.records 0 .command) own ∧
        Flattened Command.name Command.entry external own merged) ∧
    (∃ merged : Document, merged.entries = [("demo.fly", .map [])] ∧
      permissions.merge clash.scanner 0 = .ok merged ∧
      ∃ external own,
        ReadAs .permission Permission.ofAnnotation (clash.recordsBeside 0 .permission) external ∧
        ReadAs .permission Permission.ofAnnotation (clash.scanner.records 0 .permission) own ∧
        Flattened Permission.name Permission.entry external own merged) := by
  have commandsRun : commands.merge clash.scanner 0 =
      .ok { entries := [("land", .map []), ("fly", .map [("aliases", .str "f")])]
            nodup_keys := by decide } := rfl
  have permissionsRun : permissions.merge clash.scanner 0 =
      .ok { entries := [("demo.fly", .map [])], nodup_keys := by decide } := rfl
  exact ⟨⟨_, rfl, commandsRun, (merge_flattened clash 0).1 _ commandsRun⟩,
    ⟨_, rfl, permissionsRun, (merge_flattened clash 0).2 _ permissionsRun⟩⟩

end Registry
end PluginDescriptor
