import PluginDescriptor.Proofs.Priority

namespace PluginDescriptor

open AnnotationValue

namespace Annotation

/-- The annotations that a container holds in its `value`, all of them with the marker: none if it is not
set, a single one, or those of an array. -/
inductive Holds (marker : Marker) (a : Annotation) : List Annotation → Prop
  | unset : a.field? "value" = none → Holds marker a []
  | lone {b : Annotation} : a.field? "value" = some b.toValue → b.marker = marker → Holds marker a [b]
  | array {l : List Annotation} : a.field? "value" = some (.array (l.map toValue)) →
      (∀ b ∈ l, b.marker = marker) → Holds marker a l

theorem holds_iff {marker : Marker} {a : Annotation} {l : List Annotation} :
    a.Holds marker l ↔ a.records "value" marker = .ok l := by
  rw [records_eq_ok, fieldItems]
  constructor
  · rintro (unset | ⟨set, marked⟩ | ⟨set, marked⟩)
    · simp [unset]
    · rw [set]
      exact ⟨rfl, List.forall_mem_singleton.2 marked⟩
    · rw [set]
      exact ⟨rfl, marked⟩
  · rintro ⟨shown, marked⟩
    cases set : a.field? "value" with
    | none =>
      rw [set] at shown
      obtain rfl : l = [] := List.map_eq_nil_iff.1 shown.symm
      exact .unset set
    | some v =>
      rw [set, Option.elim_some] at shown
      cases v with
      | array items =>
        obtain rfl : items = l.map toValue := shown
        exact .array set marked
      | bool | str | nested =>
        obtain ⟨b, rfl, single⟩ := List.map_eq_singleton_iff.1 shown.symm
        exact .lone (set.trans (congrArg some single.symm)) (marked b (List.mem_singleton_self b))

theorem exists_holds_iff {marker : Marker} {a : Annotation} :
    (∃ l, a.Holds marker l) ↔ a.Allows "value" (IsRecords marker fun _ => True) := by
  simp only [holds_iff, records_eq_mapM]
  refine succeeds_mapM.trans ?_
  simp only [succeeds_recordItem]
  exact allows_items.symm

end Annotation

/-- The first row of annotations gives the second one under a marker: what carries the marker is taken as
it is, the marker's container gives what it holds, and all else gives nothing. -/
inductive Opens (marker : Marker) : List Annotation → List Annotation → Prop
  | nil : Opens marker [] []
  | direct {a : Annotation} {l opened : List Annotation} : a.marker = marker →
      Opens marker l opened → Opens marker (a :: l) (a :: opened)
  | container {a : Annotation} {l held opened : List Annotation} :
      marker.container? = some a.marker → a.Holds marker held → Opens marker l opened →
      Opens marker (a :: l) (held ++ opened)
  | other {a : Annotation} {l opened : List Annotation} : a.marker ≠ marker →
      marker.container? ≠ some a.marker → Opens marker l opened → Opens marker (a :: l) opened

/-- The value is the first one out of place in the first malformed container of the marker. -/
structure Declaration.FirstStray (marker : Marker) (d : Declaration) (a : Annotation)
    (v : AnnotationValue) : Prop where
  container : marker.container? = some a.marker
  first : ∃ before after, d.annotations = before ++ a :: after ∧
    ∀ b ∈ before, marker.container? = some b.marker → ∃ held, b.Holds marker held
  stray : ∃ sound rest, a.fieldItems "value" = sound ++ v :: rest ∧
    (∀ i ∈ sound, i.IsRecord marker fun _ => True) ∧ ¬ v.IsRecord marker fun _ => True

section Opening

variable {marker : Marker} {a : Annotation} {l opened : List Annotation}

theorem Opens.marked (opens : Opens marker l opened) : ∀ b ∈ opened, b.marker = marker := by
  induction opens with
  | nil => exact List.forall_mem_nil _
  | direct marked _ ih => exact List.forall_mem_cons.2 ⟨marked, ih⟩
  | container _ holds _ ih =>
    refine List.forall_mem_append.2 ⟨?_, ih⟩
    have read := Annotation.holds_iff.1 holds
    have held := Annotation.records_eq_ok.1 read
    exact held.2
  | other _ _ _ ih => exact ih

theorem instancesAmong_cons_eq_ok : instancesAmong marker (a :: l) = .ok opened ↔
    ∃ first rest, Declaration.instancesIn marker a = .ok first ∧
      instancesAmong marker l = .ok rest ∧ opened = first ++ rest := by
  simp only [instancesAmong, map_eq_ok, mapM_eq_ok, List.forall₂_cons_left_iff]
  constructor
  · rintro ⟨_, ⟨first, rows, run, runs, rfl⟩, rfl⟩
    exact ⟨first, rows.flatten, run, ⟨rows, runs, rfl⟩, List.flatten_cons⟩
  · rintro ⟨first, _, run, ⟨rows, runs, rfl⟩, rfl⟩
    exact ⟨first :: rows, ⟨first, rows, run, runs, rfl⟩, List.flatten_cons⟩

theorem instancesAmong_eq_ok : instancesAmong marker l = .ok opened ↔ Opens marker l opened := by
  constructor
  · intro read
    induction l generalizing opened with
    | nil =>
      cases read
      exact .nil
    | cons a l ih =>
      obtain ⟨first, rest, run, runs, rfl⟩ := instancesAmong_cons_eq_ok.1 read
      unfold Declaration.instancesIn at run
      split at run
      · next marked =>
        cases run
        exact .direct marked (ih runs)
      · next other =>
        split at run
        · next container =>
          have held := Annotation.holds_iff.2 run
          exact .container container held (ih runs)
        · next apart =>
          cases run
          exact .other other apart (ih runs)
  · intro opens
    induction opens with
    | nil => rfl
    | direct marked _ ih =>
      refine instancesAmong_cons_eq_ok.2 ⟨[_], _, ?_, ih, rfl⟩
      rw [Declaration.instancesIn, if_pos marked]
    | container container holds _ ih =>
      refine instancesAmong_cons_eq_ok.2 ⟨_, _, ?_, ih, rfl⟩
      rw [Declaration.instancesIn, if_neg, if_pos container]
      · exact Annotation.holds_iff.1 holds
      · exact fun marked => marker.container?_ne_self (container.trans (congrArg some marked))
    | other other apart _ ih =>
      refine instancesAmong_cons_eq_ok.2 ⟨[], _, ?_, ih, rfl⟩
      rw [Declaration.instancesIn, if_neg other, if_neg apart]

/-- Reading stops at the first value that is out of place, and shows it. -/
theorem Declaration.instances_eq_error_iff {d : Declaration} {e : Fault} :
    d.instances marker = .error e ↔
      ∃ a v, d.FirstStray marker a v ∧ e = .invalidValue a.marker "value" v.compact := by
  have opens (b : Annotation) : Succeeds (instancesIn marker b) ↔
      (marker.container? = some b.marker → ∃ held, b.Holds marker held) := by
    rw [succeeds_instancesIn, Annotation.exists_holds_iff]
    rfl
  simp only [instances_eq_error, FirstFails, instancesIn_eq_error, opens,
    Annotation.succeeds_recordItem, Annotation.recordItem_eq_error]
  constructor
  · rintro ⟨before, a, after, split, passed, container, sound, v, rest, items, placed, stray, rfl⟩
    exact ⟨a, v, ⟨container, ⟨before, after, split, passed⟩, sound, rest, items, placed, stray⟩, rfl⟩
  · rintro ⟨a, v, ⟨container, ⟨before, after, split, passed⟩, sound, rest, items, placed, stray⟩, rfl⟩
    exact ⟨before, a, after, split, passed, container, sound, v, rest, items, placed, stray, rfl⟩

end Opening

/-- Under a marker a declaration shows its annotations with all containers of the marker opened, in their
order and nothing else, unless a container holds something that does not have the marker. Then the first
such thing in the first such container is reported, whatever stands around it. -/
theorem Scanner.instances_opened {s : Scanner} {h : Handle} {d : Declaration}
    (known : s.declaration h = some d) (marker : Marker) :
    (∀ l, s.instances h marker = .ok l ↔ Opens marker d.annotations l) ∧
    ((∃ l, s.instances h marker = .ok l) ↔ ∀ a ∈ d.annotations,
      marker.container? = some a.marker → ∃ held, a.Holds marker held) ∧
    (∀ l, s.instances h marker = .ok l → ∀ b ∈ l, b.marker = marker) ∧
    ∀ e, s.instances h marker = .error e ↔
      ∃ a v, d.FirstStray marker a v ∧ e = .invalidValue a.marker "value" v.compact := by
  have read : s.instances h marker = d.instances marker := by rw [instances, known]
  have opened (l : List Annotation) : d.instances marker = .ok l ↔ Opens marker d.annotations l :=
    instancesAmong_eq_ok
  rw [read]
  refine ⟨opened, ?_, fun l run => ((opened l).1 run).marked,
    fun e => Declaration.instances_eq_error_iff⟩
  have held (a : Annotation) : (∃ l, a.Holds marker l) ↔ _ := Annotation.exists_holds_iff
  simp only [held]
  exact Declaration.succeeds_instances

/-- Commands by themselves and in containers, and among the permissions a container that is malformed. -/
def Declaration.mixed : Declaration where
  qualifiedName := "demo.Main"
  kind := .classType
  enclosing := .package "demo"
  annotations :=
    [⟨.command, [("name", .str "fly")]⟩, ⟨.permission, [("name", .str "demo.fly")]⟩,
      ⟨.commands, [("value", .array [.nested .command [], .nested .command [("usage", .str "/dig")]])]⟩,
      ⟨.permissions, [("value", .array [.nested .permission [], .nested .command [], .bool true])]⟩,
      ⟨.commands, []⟩, ⟨.commands, [("value", .nested .command [("name", .str "land")])]⟩,
      ⟨.permission, []⟩]

theorem Scanner.instances_opened_mixed :
    let s := (Snapshot.mk [.mixed]).scanner
    s.declaration 0 = some .mixed ∧
    Opens .command Declaration.mixed.annotations
      [⟨.command, [("name", .str "fly")]⟩, ⟨.command, []⟩, ⟨.command, [("usage", .str "/dig")]⟩,
        ⟨.command, [("name", .str "land")]⟩] ∧
    ∃ a v, Declaration.mixed.FirstStray .permission a v ∧
      .invalidValue .permissions "value" "\x7b\"marker\":\"Command\",\"fields\":\x7b\x7d\x7d" =
        Fault.invalidValue a.marker "value" v.compact := by
  intro s
  have known : s.declaration 0 = some .mixed := rfl
  refine ⟨known, ((Scanner.instances_opened known .command).1 _).1 rfl, ?_⟩
  exact ((Scanner.instances_opened known .permission).2.2.2 _).1 (by decide +kernel)

end PluginDescriptor
