import PluginDescriptor.Proofs.Failure
import PluginDescriptor.Proofs.Holders

namespace PluginDescriptor

open AnnotationValue

namespace Annotation

/-- If the annotation is the marker's container, then it holds nothing but annotations with the marker. -/
def OpensTo (marker : Marker) (a : Annotation) : Prop :=
  marker.container? = some a.marker → a.Allows "value" (IsRecords marker fun _ => True)

theorem succeeds_recordItem {a : Annotation} {name : String} {marker : Marker}
    {v : AnnotationValue} :
    Succeeds (a.recordItem name marker v) ↔ v.IsRecord marker fun _ => True := by
  simp only [Succeeds, recordItem_eq_ok, IsRecord, and_true]

theorem recordItem_eq_error {a : Annotation} {name : String} {marker : Marker}
    {v : AnnotationValue} {e : Fault} :
    a.recordItem name marker v = .error e ↔
      (¬ v.IsRecord marker fun _ => True) ∧ e = a.invalid name v := by
  rw [← @succeeds_recordItem a name marker v]
  cases v with
  | nested m fields => by_cases same : m = marker <;> simp [recordItem, same, eq_comm]
  | bool | str | array => simp [recordItem, eq_comm]

end Annotation

namespace Declaration

variable {marker : Marker} {a : Annotation} {d : Declaration} {e : Fault}

theorem succeeds_instancesIn : Succeeds (instancesIn marker a) ↔ a.OpensTo marker := by
  unfold instancesIn Annotation.OpensTo
  split
  · next same =>
    have apart := marker.container?_ne_self
    simp [same, apart]
  · split
    · next held =>
      simp only [held, forall_const, Annotation.records_eq_mapM, succeeds_mapM,
        Annotation.succeeds_recordItem]
      exact Annotation.allows_items.symm
    · next apart => simp [apart]

theorem instancesIn_eq_error : instancesIn marker a = .error e ↔
    marker.container? = some a.marker ∧
      FirstFails (a.recordItem "value" marker) (a.fieldItems "value") e := by
  unfold instancesIn
  split
  · next same =>
    have apart := marker.container?_ne_self
    simp [same, apart]
  · split
    · next held => rw [and_iff_right held, Annotation.records_eq_mapM, mapM_eq_error]
    · next apart => simp [apart]

/-- All records of a marker on the declaration, by themselves or in a container, can be read. -/
def IsReadable {ι : Type} (marker : Marker) (read : Annotation → Except Fault ι)
    (d : Declaration) : Prop :=
  ∀ a ∈ d.annotations, (a.marker = marker → Succeeds (read a)) ∧
    (marker.container? = some a.marker →
      a.Allows "value" (IsRecords marker fun b => Succeeds (read b)))

/-- What is reported of a declaration if not all records of a marker can be read: the first item that
is out of place in the first malformed container, or, if there is no such container, what is wrong with
the first record that cannot be read. -/
inductive Misreads {ι : Type} (marker : Marker) (read : Annotation → Except Fault ι)
    (d : Declaration) : Fault → Prop
  | container {before : List Annotation} {a : Annotation} {after : List Annotation}
      {sound : List AnnotationValue} {v : AnnotationValue} {rest : List AnnotationValue} :
      d.annotations = before ++ a :: after → (∀ b ∈ before, b.OpensTo marker) →
      marker.container? = some a.marker → a.fieldItems "value" = sound ++ v :: rest →
      (∀ i ∈ sound, i.IsRecord marker fun _ => True) → (¬ v.IsRecord marker fun _ => True) →
      Misreads marker read d (.invalidValue a.marker "value" v.compact)
  | record {before : List Annotation} {b : Annotation} {after : List Annotation} {e : Fault} :
      (∀ a ∈ d.annotations, a.OpensTo marker) →
      d.records marker = (before ++ b :: after).map Annotation.toValue →
      (∀ c ∈ before, Succeeds (read c)) → read b = .error e → Misreads marker read d e

theorem instances_eq_error : d.instances marker = .error e ↔
    FirstFails (instancesIn marker) d.annotations e := by
  rw [instances, map_eq_error, mapM_eq_error]

theorem succeeds_instances :
    Succeeds (d.instances marker) ↔ ∀ a ∈ d.annotations, a.OpensTo marker := by
  rw [instances, succeeds_map, succeeds_mapM]
  exact forall₂_congr fun _ _ => succeeds_instancesIn

variable {ι : Type} {read : Annotation → Except Fault ι}

theorem succeeds_instances_mapM :
    Succeeds (d.instances marker >>= fun l => l.mapM read) ↔ d.IsReadable marker read := by
  simp only [Succeeds, instances_mapM_eq_ok, exists_readAs]
  exact forall_records

/-- Reading the records of a declaration fails exactly with what it misreads. -/
theorem instances_mapM_eq_error :
    (d.instances marker >>= fun l => l.mapM read) = .error e ↔ d.Misreads marker read e := by
  rw [bind_eq_error, instances_eq_error]
  constructor
  · rintro (⟨before, a, after, split, passed, failed⟩ | ⟨l, opened, failed⟩)
    · obtain ⟨held, sound, v, rest, items, placed, wrong⟩ := instancesIn_eq_error.1 failed
      obtain ⟨misplaced, rfl⟩ := Annotation.recordItem_eq_error.1 wrong
      exact .container split (fun b member => succeeds_instancesIn.1 (passed b member)) held items
        (fun i member => Annotation.succeeds_recordItem.1 (placed i member)) misplaced
    · obtain ⟨before, b, after, rfl, passed, failed⟩ := mapM_eq_error.1 failed
      exact .record (succeeds_instances.1 ⟨_, opened⟩) (instances_eq_ok.1 opened).1 passed failed
  · rintro (⟨split, passed, held, items, placed, misplaced⟩ | ⟨opens, shown, passed, failed⟩)
    · refine Or.inl ⟨_, _, _, split, fun b member => succeeds_instancesIn.2 (passed b member), ?_⟩
      refine instancesIn_eq_error.2 ⟨held, _, _, _, items, fun i member => ?_, ?_⟩
      · exact Annotation.succeeds_recordItem.2 (placed i member)
      · exact Annotation.recordItem_eq_error.2 ⟨misplaced, rfl⟩
    · obtain ⟨l, opened⟩ := succeeds_instances.2 opens
      have same := (instances_eq_ok.1 opened).1.symm.trans shown
      rw [List.map_injective_iff.2 (fun _ _ => Annotation.toValue_injective) same] at opened
      exact Or.inr ⟨_, opened, mapM_eq_error.2 ⟨_, _, _, rfl, passed, failed⟩⟩

end Declaration

/-- There is a declaration under the handle, and it declares a type. -/
def Scanner.ShowsType (s : Scanner) (h : Handle) : Prop :=
  ∃ d, s.declaration h = some d ∧ d.kind.isType = true

namespace Registry

/-- The scanner finds the handle under one of the registry's two markers. -/
def IsFound (r : Registry) (s : Scanner) (h : Handle) : Prop :=
  h ∈ s.scan r.container ∨ h ∈ s.scan r.single

/-- The items of the first declaration are read before those of the second: handles go in ascending
order, but the entry point comes last. -/
def ReadsBefore (entry g h : Handle) : Prop := g ≠ entry ∧ (h = entry ∨ g < h)

/-- The fault that merging reports.

What is found has to be a type, which is checked of all handles first; the smallest one that is not is
blamed. Then the items are read, and the first declaration on which some cannot be read is blamed. -/
inductive Blames {ι : Type} (r : Registry) (read : Annotation → Except Fault ι) (s : Scanner)
    (entry : Handle) : Fault → Prop
  | unknown {h : Handle} : r.IsFound s h → s.declaration h = none →
      (∀ g, r.IsFound s g → g < h → s.ShowsType g) → Blames r read s entry (.unknownDeclaration h)
  | notAType {h : Handle} {d : Declaration} : r.IsFound s h → s.declaration h = some d →
      d.kind.isType = false → (∀ g, r.IsFound s g → g < h → s.ShowsType g) →
      Blames r read s entry (r.notAType d.qualifiedName)
  | items {h : Handle} {d : Declaration} {e : Fault} : (∀ g, r.IsFound s g → s.ShowsType g) →
      (r.IsFound s h ∨ h = entry) → s.declaration h = some d →
      (∀ g c, r.IsFound s g → ReadsBefore entry g h → s.declaration g = some c →
        c.IsReadable r.single read) →
      d.Misreads r.single read e → Blames r read s entry e

/-- Nothing is wrong with what is found and with the entry point. -/
structure IsMergeable {ι : Type} (r : Registry) (read : Annotation → Except Fault ι) (s : Scanner)
    (entry : Handle) : Prop where
  types : ∀ h, r.IsFound s h → s.ShowsType h
  items : ∀ h d, (r.IsFound s h ∨ h = entry) → s.declaration h = some d →
    d.IsReadable r.single read

section Merging

variable {ι : Type} {r : Registry} {read : Annotation → Except Fault ι} {s : Scanner}
  {entry h : Handle} {e : Fault}

theorem succeeds_check : Succeeds (r.check s.declaration h) ↔ s.ShowsType h := by
  unfold check requireType Scanner.ShowsType
  cases s.declaration h with
  | none => simp
  | some d => cases isType : d.kind.isType <;> simp [isType]

theorem check_eq_error : r.check s.declaration h = .error e ↔
    s.declaration h = none ∧ .unknownDeclaration h = e ∨
      ∃ d, s.declaration h = some d ∧ d.kind.isType = false ∧ r.notAType d.qualifiedName = e := by
  unfold check requireType
  cases s.declaration h with
  | none => simp
  | some d => cases isType : d.kind.isType <;> simp [isType]

/-- Merging along a row fails at the first check that fails, or, if none does, at the first items that
cannot be read. -/
theorem mergeAlong_eq_error {row : List Handle} :
    r.mergeAlong s.declaration row entry = .error e ↔
      FirstFails (r.check s.declaration) row e ∨ (∀ h ∈ row, s.ShowsType h) ∧
        FirstFails (r.itemsAt s.declaration) (row.filter (· != entry) ++ [entry]) e := by
  unfold mergeAlong
  rw [bind_eq_error, forM_eq_error]
  simp only [foldlM_eq_error, exists_and_right]
  exact or_congr_right (and_congr_left' (succeeds_forM.trans (forall₂_congr fun _ _ => succeeds_check)))

theorem succeeds_mergeAlong {row : List Handle} :
    Succeeds (r.mergeAlong s.declaration row entry) ↔ (∀ h ∈ row, s.ShowsType h) ∧
      ∀ h ∈ row.filter (· != entry) ++ [entry], Succeeds (r.itemsAt s.declaration h) := by
  unfold mergeAlong
  rw [succeeds_bind_const fun _ => succeeds_foldlM, succeeds_forM]
  exact and_congr_left' (forall₂_congr fun _ _ => succeeds_check)

/-- The order in which items are read is that of the row along which merging goes. -/
theorem pairwise_readsBefore {row : List Handle} (sorted : row.Pairwise (· < ·)) :
    (row.filter (· != entry) ++ [entry]).Pairwise (ReadsBefore entry) := by
  have others (h : Handle) (member : h ∈ row.filter (· != entry)) : h ≠ entry := by
    simpa using (List.mem_filter.1 member).2
  rw [List.pairwise_append]
  refine ⟨?_, List.pairwise_singleton .., fun g member h last => ?_⟩
  · exact (sorted.filter _).imp_of_mem fun member _ smaller => ⟨others _ member, Or.inr smaller⟩
  · exact ⟨others g member, Or.inl (List.mem_singleton.1 last)⟩

theorem mem_ascending_scan :
    h ∈ ascending (s.scan r.container ++ s.scan r.single) ↔ r.IsFound s h :=
  mem_ascending.trans List.mem_append

/-- Items are read of everything that is found, and of the entry point. -/
theorem mem_visited :
    h ∈ (ascending (s.scan r.container ++ s.scan r.single)).filter (· != entry) ++ [entry] ↔
      r.IsFound s h ∨ h = entry := by
  rw [List.mem_append, List.mem_filter, mem_ascending_scan, List.mem_singleton, bne_iff_ne]
  by_cases last : h = entry
  · simp [last]
  · simp [last]

theorem ReadsBefore.asymm {g h : Handle} (before : ReadsBefore entry g h) :
    ¬ ReadsBefore entry h g := by
  rintro ⟨notLast, last | smaller⟩
  · exact before.1 last
  · rcases before.2 with last | smaller'
    · exact notLast last
    · exact Nat.lt_asymm smaller smaller'

variable (item : ∀ a e, r.item a = .error e ↔ read a = .error e)

include item

theorem itemsFrom_eq_error {d : Declaration} :
    r.itemsFrom d = .error e ↔ d.Misreads r.single read e := by
  have alike (l : List Annotation) : l.mapM r.item = .error e ↔ l.mapM read = .error e := by
    rw [mapM_eq_error, mapM_eq_error]
    exact firstFails_congr fun a _ => item a
  unfold itemsFrom
  rw [← Declaration.instances_mapM_eq_error, bind_eq_error, bind_eq_error]
  simp only [bind_pure_eq_error, alike]

theorem itemsAt_eq_error : r.itemsAt s.declaration h = .error e ↔
    ∃ d, s.declaration h = some d ∧ d.Misreads r.single read e := by
  unfold itemsAt
  cases s.declaration h with
  | none => simp
  | some d => simp [itemsFrom_eq_error item]

theorem succeeds_itemsAt : Succeeds (r.itemsAt s.declaration h) ↔
    ∀ d, s.declaration h = some d → d.IsReadable r.single read := by
  rw [← not_iff_not, not_succeeds_iff]
  simp only [itemsAt_eq_error item, ← Declaration.succeeds_instances_mapM, not_forall,
    not_succeeds_iff, Declaration.instances_mapM_eq_error, exists_prop]
  rw [exists_comm]
  simp only [exists_and_left]

/-- Merging fails with the fault that is to blame, and with no other. -/
theorem merge_eq_error : r.merge s entry = .error e ↔ r.Blames read s entry e := by
  have sorted := pairwise_ascending (s.scan r.container ++ s.scan r.single)
  rw [merge_eq_mergeAlong sorted fun _ => mem_ascending, mergeAlong_eq_error,
    firstFails_of_pairwise (fun _ _ => Nat.lt_asymm) sorted,
    firstFails_of_pairwise (fun _ _ => ReadsBefore.asymm) (pairwise_readsBefore sorted)]
  simp only [mem_ascending_scan, mem_visited, succeeds_check, check_eq_error,
    itemsAt_eq_error item, succeeds_itemsAt item]
  constructor
  · rintro (⟨h, inside, ⟨unknown, rfl⟩ | ⟨d, known, noType, rfl⟩, smaller⟩ |
      ⟨types, h, visited, ⟨d, known, misread⟩, before⟩)
    · exact .unknown inside unknown smaller
    · exact .notAType inside known noType smaller
    · exact .items types visited known
        (fun g c inside earlier => before g (Or.inl inside) earlier c) misread
  · rintro (⟨inside, unknown, smaller⟩ | ⟨inside, known, noType, smaller⟩ |
      ⟨types, visited, known, before, misread⟩)
    · exact Or.inl ⟨_, inside, Or.inl ⟨unknown, rfl⟩, smaller⟩
    · exact Or.inl ⟨_, inside, Or.inr ⟨_, known, noType, rfl⟩, smaller⟩
    · refine Or.inr ⟨types, _, visited, ⟨_, known, misread⟩, ?_⟩
      rintro g (inside | rfl) earlier c shown
      · exact before g c inside earlier shown
      · exact absurd rfl earlier.1

/-- Where nothing is wrong merging does not fail. -/
theorem succeeds_merge_iff : Succeeds (r.merge s entry) ↔ r.IsMergeable read s entry := by
  have sorted := pairwise_ascending (s.scan r.container ++ s.scan r.single)
  rw [merge_eq_mergeAlong sorted fun _ => mem_ascending, succeeds_mergeAlong]
  simp only [mem_ascending_scan, mem_visited, succeeds_itemsAt item]
  exact ⟨fun ⟨types, items⟩ => ⟨types, fun h d visited => items h visited d⟩,
    fun ⟨types, items⟩ => ⟨types, fun h visited d => items h d visited⟩⟩

end Merging

theorem commands_item_eq_error {a : Annotation} {e : Fault} :
    commands.item a = .error e ↔ Command.ofAnnotation a = .error e :=
  bind_pure_eq_error

theorem permissions_item_eq_error {a : Annotation} {e : Fault} :
    permissions.item a = .error e ↔ Permission.ofAnnotation a = .error e :=
  bind_pure_eq_error

/-- Of everything that is wrong with the commands of a program merging reports what is to blame and
nothing else, and where nothing is wrong it does not fail. So with the permissions. -/
theorem merge_blames (s : Scanner) (entry : Handle) :
    ((∀ e, commands.merge s entry = .error e ↔ commands.Blames Command.ofAnnotation s entry e) ∧
      ((∃ merged, commands.merge s entry = .ok merged) ↔
        commands.IsMergeable Command.ofAnnotation s entry)) ∧
    (∀ e, permissions.merge s entry = .error e ↔
      permissions.Blames Permission.ofAnnotation s entry e) ∧
    ((∃ merged, permissions.merge s entry = .ok merged) ↔
      permissions.IsMergeable Permission.ofAnnotation s entry) :=
  ⟨⟨fun _ => merge_eq_error fun _ _ => commands_item_eq_error,
      succeeds_merge_iff fun _ _ => commands_item_eq_error⟩,
    fun _ => merge_eq_error fun _ _ => permissions_item_eq_error,
    succeeds_merge_iff fun _ _ => permissions_item_eq_error⟩

/-- A method that carries a command is blamed before a command without a name on an earlier class. -/
example :
    commands.merge (Snapshot.scanner
      ⟨[{ qualifiedName := "demo.Main", kind := .classType, enclosing := .package "demo",
          annotations := [⟨.plugin, []⟩, ⟨.command, []⟩] },
        { qualifiedName := "demo.Main.fly", kind := .method, enclosing := .type "demo.Main",
          annotations := [⟨.command, [("name", .str "fly")]⟩] }]⟩) 0 =
      .error (.invalidCommandExecutor "demo.Main.fly") := rfl

end Registry
end PluginDescriptor
