import PluginDescriptor.Proofs.Success
import PluginDescriptor.Scanner

namespace PluginDescriptor

namespace AnnotationValue

/-- The items of an array; any other value is its own only item. -/
def items : AnnotationValue → List AnnotationValue
  | .array l => l
  | v => [v]

def IsText (v : AnnotationValue) : Prop := ∃ t, v = .str t

def IsFlag (v : AnnotationValue) : Prop := ∃ b, v = .bool b

/-- A text, or an array of texts. -/
def IsTexts (v : AnnotationValue) : Prop := ∀ i ∈ v.items, i.IsText

/-- An annotation with this marker that is as `P` says. -/
def IsRecord (marker : Marker) (P : Annotation → Prop) (v : AnnotationValue) : Prop :=
  ∃ a : Annotation, v = a.toValue ∧ a.marker = marker ∧ P a

/-- An annotation with this marker that is as `P` says, or an array of such annotations. -/
def IsRecords (marker : Marker) (P : Annotation → Prop) (v : AnnotationValue) : Prop :=
  ∀ i ∈ v.items, i.IsRecord marker P

end AnnotationValue

theorem Annotation.toValue_injective {a b : Annotation} (same : a.toValue = b.toValue) : a = b := by
  obtain ⟨m, fields⟩ := a
  obtain ⟨n, fields'⟩ := b
  simpa [toValue] using same

@[simp] theorem isRecord_toValue {marker : Marker} {P : Annotation → Prop} {a : Annotation} :
    a.toValue.IsRecord marker P ↔ a.marker = marker ∧ P a := by
  constructor
  · rintro ⟨b, same, marked, holds⟩
    cases Annotation.toValue_injective same
    exact ⟨marked, holds⟩
  · rintro ⟨marked, holds⟩
    exact ⟨a, rfl, marked, holds⟩

/-- The values are annotations with this marker, and reading one after the other gives these
results. -/
def ReadAs {ι : Type} (marker : Marker) (read : Annotation → Except Fault ι)
    (values : List AnnotationValue) (results : List ι) : Prop :=
  ∃ l : List Annotation, values = l.map Annotation.toValue ∧ (∀ a ∈ l, a.marker = marker) ∧
    l.mapM read = .ok results

section ReadAs

variable {ι : Type} {marker : Marker} {read : Annotation → Except Fault ι}

theorem readAs_nil {results : List ι} : ReadAs marker read [] results ↔ results = [] := by
  constructor
  · rintro ⟨_, none, _, run⟩
    rw [List.map_eq_nil_iff.1 none.symm] at run
    cases run
    rfl
  · rintro rfl
    exact ⟨[], rfl, by simp, rfl⟩

theorem readAs_append {values more : List AnnotationValue} {results : List ι} :
    ReadAs marker read (values ++ more) results ↔
      ∃ before after, ReadAs marker read values before ∧ ReadAs marker read more after ∧
        results = before ++ after := by
  constructor
  · rintro ⟨l, split, marked, run⟩
    obtain ⟨first, second, rfl, rfl, rfl⟩ := List.append_eq_map_iff.1 split
    obtain ⟨before, after, left, right, rfl⟩ := mapM_append_eq_ok.1 run
    rw [List.forall_mem_append] at marked
    exact ⟨before, after, ⟨first, rfl, marked.1, left⟩, ⟨second, rfl, marked.2, right⟩, rfl⟩
  · rintro ⟨before, after, ⟨first, rfl, markedFirst, left⟩, ⟨second, rfl, markedSecond, right⟩, rfl⟩
    refine ⟨first ++ second, by simp, ?_, mapM_append_eq_ok.2 ⟨before, after, left, right, rfl⟩⟩
    exact List.forall_mem_append.2 ⟨markedFirst, markedSecond⟩

theorem readAs_unique {values : List AnnotationValue} {results results' : List ι}
    (first : ReadAs marker read values results) (second : ReadAs marker read values results') :
    results = results' := by
  obtain ⟨l, rfl, _, run⟩ := first
  obtain ⟨l', same, _, run'⟩ := second
  have lists := List.map_injective_iff.2 (fun _ _ => Annotation.toValue_injective) same
  rw [lists, run'] at run
  exact (Except.ok.inj run).symm

/-- A row of values can be read if each of them can. -/
theorem exists_readAs {values : List AnnotationValue} :
    (∃ results, ReadAs marker read values results) ↔
      ∀ v ∈ values, v.IsRecord marker fun a => Succeeds (read a) := by
  constructor
  · rintro ⟨results, l, rfl, marked, run⟩ v member
    obtain ⟨a, here, rfl⟩ := List.mem_map.1 member
    exact isRecord_toValue.2 ⟨marked a here, succeeds_mapM.1 ⟨results, run⟩ a here⟩
  · intro each
    induction values with
    | nil => exact ⟨[], readAs_nil.2 rfl⟩
    | cons v rest ih =>
      rw [List.forall_mem_cons] at each
      obtain ⟨⟨a, rfl, marked, result, run⟩, others⟩ := each
      obtain ⟨results, later⟩ := ih others
      have first : ReadAs marker read [a.toValue] [result] :=
        ⟨[a], rfl, by simpa using marked, by rw [List.mapM_cons, run]; rfl⟩
      exact ⟨result :: results, readAs_append.2 ⟨[result], results, first, later, rfl⟩⟩

/-- Reading on from every result is reading on from the whole row. -/
theorem readAs_bind_pure {κ : Type} {finish : ι → κ} {values : List AnnotationValue}
    {results : List κ} :
    ReadAs marker (fun a => do return finish (← read a)) values results ↔
      ∃ row, ReadAs marker read values row ∧ results = row.map finish := by
  unfold ReadAs
  simp only [mapM_bind_pure_eq_ok]
  grind

end ReadAs

open AnnotationValue

namespace Annotation

/-- If the field is set, its value is as `P` says. -/
def Allows (a : Annotation) (name : String) (P : AnnotationValue → Prop) : Prop :=
  ∀ v, a.field? name = some v → P v

/-- The field is set, and its value is as `P` says. -/
def Requires (a : Annotation) (name : String) (P : AnnotationValue → Prop) : Prop :=
  ∃ v, a.field? name = some v ∧ P v

/-- The items of a field; a field that is not set has none. -/
def fieldItems (a : Annotation) (name : String) : List AnnotationValue :=
  (a.field? name).elim [] items

theorem allows_items {a : Annotation} {name : String} {P : AnnotationValue → Prop} :
    a.Allows name (fun v => ∀ i ∈ v.items, P i) ↔ ∀ i ∈ a.fieldItems name, P i := by
  unfold Allows fieldItems
  cases a.field? name with
  | none => simp
  | some v => simp

theorem succeeds_text? {a : Annotation} {name : String} :
    Succeeds (a.text? name) ↔ a.Allows name IsText := by
  unfold text? Allows
  cases a.field? name with
  | none => simp
  | some v => cases v <;> simp [IsText]

theorem requiredText_eq_ok {a : Annotation} {name t : String} :
    a.requiredText name = .ok t ↔ a.field? name = some (.str t) := by
  unfold requiredText text?
  cases a.field? name with
  | none => simp
  | some v => cases v <;> simp

theorem succeeds_requiredText {a : Annotation} {name : String} :
    Succeeds (a.requiredText name) ↔ a.Requires name IsText := by
  simp only [Succeeds, requiredText_eq_ok, Requires, IsText]
  constructor
  · rintro ⟨t, set⟩
    exact ⟨.str t, set, t, rfl⟩
  · rintro ⟨_, set, t, rfl⟩
    exact ⟨t, set⟩

theorem succeeds_flag? {a : Annotation} {name : String} :
    Succeeds (a.flag? name) ↔ a.Allows name IsFlag := by
  unfold flag? Allows
  cases a.field? name with
  | none => simp
  | some v => cases v <;> simp [IsFlag]

theorem texts_eq_mapM (a : Annotation) (name : String) :
    a.texts name = (a.fieldItems name).mapM (a.textItem name) := by
  unfold texts fieldItems
  cases a.field? name with
  | none => rfl
  | some v => cases v <;> rfl

theorem succeeds_texts {a : Annotation} {name : String} :
    Succeeds (a.texts name) ↔ a.Allows name IsTexts := by
  have item (v : AnnotationValue) : Succeeds (a.textItem name v) ↔ v.IsText := by
    cases v <;> simp [textItem, IsText]
  simp only [texts_eq_mapM, succeeds_mapM, item]
  exact allows_items.symm

theorem recordItem_eq_ok {a b : Annotation} {name : String} {marker : Marker}
    {v : AnnotationValue} :
    a.recordItem name marker v = .ok b ↔ v = b.toValue ∧ b.marker = marker := by
  cases v with
  | nested m fields =>
    obtain ⟨n, fields'⟩ := b
    simp only [recordItem, toValue, nested.injEq]
    split
    · next same => simp only [Except.ok.injEq, mk.injEq]; grind
    · next other => simp only [reduceCtorEq, false_iff]; grind
  | bool => simp [recordItem, toValue]
  | str => simp [recordItem, toValue]
  | array => simp [recordItem, toValue]

theorem records_eq_mapM (a : Annotation) (name : String) (marker : Marker) :
    a.records name marker = (a.fieldItems name).mapM (a.recordItem name marker) := by
  unfold records fieldItems
  cases a.field? name with
  | none => rfl
  | some v =>
    cases v with
    | array l => rfl
    | bool | str | nested =>
      simp only [Option.elim_some, items, List.mapM_cons, List.mapM_nil]
      cases a.recordItem name marker _ <;> rfl

/-- The records of a field are its items, all of them with the marker. -/
theorem records_eq_ok {a : Annotation} {name : String} {marker : Marker} {l : List Annotation} :
    a.records name marker = .ok l ↔
      a.fieldItems name = l.map toValue ∧ ∀ b ∈ l, b.marker = marker := by
  rw [records_eq_mapM, mapM_eq_ok]
  simp only [recordItem_eq_ok]
  generalize a.fieldItems name = items
  induction l generalizing items with
  | nil => simp [List.forall₂_nil_right_iff]
  | cons b r ih =>
    simp only [List.forall₂_cons_right_iff, ih, List.map_cons, List.forall_mem_cons]
    constructor
    · rintro ⟨v, rest, ⟨rfl, hb⟩, ⟨rfl, hr⟩, rfl⟩
      exact ⟨rfl, hb, hr⟩
    · rintro ⟨rfl, hb, hr⟩
      exact ⟨_, _, ⟨rfl, hb⟩, ⟨rfl, hr⟩, rfl⟩

theorem records_mapM_eq_ok {ι : Type} {a : Annotation} {name : String} {marker : Marker}
    {read : Annotation → Except Fault ι} {results : List ι} :
    (a.records name marker >>= fun l => l.mapM read) = .ok results ↔
      ReadAs marker read (a.fieldItems name) results := by
  simp only [bind_eq_ok, records_eq_ok, ReadAs, and_assoc]

theorem succeeds_records_mapM {ι : Type} {a : Annotation} {name : String} {marker : Marker}
    {read : Annotation → Except Fault ι} :
    Succeeds (a.records name marker >>= fun l => l.mapM read) ↔
      a.Allows name (IsRecords marker fun b => Succeeds (read b)) := by
  simp only [Succeeds, records_mapM_eq_ok, exists_readAs]
  exact allows_items.symm

end Annotation

/-- No marker is its own container. -/
theorem Marker.container?_ne_self (m : Marker) : m.container? ≠ some m := by
  cases m <;> decide

namespace Declaration

/-- What one annotation adds to the records of a marker: itself if it has the marker, every item of
its `value` if it is the marker's container, nothing otherwise. -/
def recordsIn (marker : Marker) (a : Annotation) : List AnnotationValue :=
  if a.marker = marker then [a.toValue]
  else if marker.container? = some a.marker then a.fieldItems "value"
  else []

/-- The records of a marker in order, with every container opened in its place. -/
def records (marker : Marker) (d : Declaration) : List AnnotationValue :=
  d.annotations.flatMap (recordsIn marker)

theorem records_eq_nil {marker : Marker} {d : Declaration}
    (single : d.hasMarker marker = false)
    (container : ∀ c, marker.container? = some c → d.hasMarker c = false) :
    d.records marker = [] := by
  simp only [records, List.flatMap_eq_nil_iff]
  intro a member
  simp only [hasMarker, List.any_eq_false, beq_iff_eq] at single container
  rw [recordsIn, if_neg (single a member), if_neg fun held => container _ held a member rfl]

theorem instancesIn_eq_ok {marker : Marker} {a : Annotation} {l : List Annotation} :
    instancesIn marker a = .ok l ↔
      recordsIn marker a = l.map Annotation.toValue ∧ ∀ b ∈ l, b.marker = marker := by
  unfold instancesIn recordsIn
  split
  · next same =>
    simp only [Except.ok.injEq]
    constructor
    · rintro rfl
      simp [same]
    · rintro ⟨only, _⟩
      exact List.map_injective_iff.2 (fun _ _ => Annotation.toValue_injective) only
  · split
    · exact Annotation.records_eq_ok
    · simp only [Except.ok.injEq, List.nil_eq, List.map_eq_nil_iff]
      exact ⟨fun none => ⟨none, by simp [none]⟩, And.left⟩

/-- The instances of a marker can be read if all its records have the marker, and then they are
these records. -/
theorem instances_eq_ok {marker : Marker} {d : Declaration} {l : List Annotation} :
    d.instances marker = .ok l ↔
      d.records marker = l.map Annotation.toValue ∧ ∀ b ∈ l, b.marker = marker := by
  unfold instances records
  rw [map_eq_ok]
  generalize d.annotations = annotations
  induction annotations generalizing l with
  | nil =>
    constructor
    · rintro ⟨_, ⟨⟩, rfl⟩
      simp
    · rintro ⟨none, _⟩
      exact ⟨[], rfl, (List.map_eq_nil_iff.1 none.symm).symm⟩
  | cons a r ih =>
    rw [List.flatMap_cons]
    constructor
    · rintro ⟨rows, run, rfl⟩
      rw [mapM_eq_ok, List.forall₂_cons_left_iff] at run
      obtain ⟨row, rest, first, others, rfl⟩ := run
      obtain ⟨shown, marked⟩ := instancesIn_eq_ok.1 first
      obtain ⟨shownRest, markedRest⟩ := ih.1 ⟨rest, mapM_eq_ok.2 others, rfl⟩
      rw [List.flatten_cons, List.map_append, shown, shownRest]
      exact ⟨rfl, List.forall_mem_append.2 ⟨marked, markedRest⟩⟩
    · rintro ⟨split, marked⟩
      obtain ⟨row, rest, rfl, shown, shownRest⟩ := List.append_eq_map_iff.1 split
      rw [List.forall_mem_append] at marked
      have first := instancesIn_eq_ok.2 ⟨shown.symm, marked.1⟩
      obtain ⟨rows, run, rfl⟩ := ih.2 ⟨shownRest.symm, marked.2⟩
      exact ⟨row :: rows, mapM_eq_ok.2 (.cons first (mapM_eq_ok.1 run)), rfl⟩

theorem instances_mapM_eq_ok {ι : Type} {marker : Marker} {d : Declaration}
    {read : Annotation → Except Fault ι} {results : List ι} :
    (d.instances marker >>= fun l => l.mapM read) = .ok results ↔
      ReadAs marker read (d.records marker) results := by
  simp only [bind_eq_ok, instances_eq_ok, ReadAs, and_assoc]

/-- The records of a marker are as `P` says if those are that stand by themselves and those in
containers. -/
theorem forall_records {marker : Marker} {d : Declaration} {P : Annotation → Prop} :
    (∀ v ∈ d.records marker, v.IsRecord marker P) ↔
      ∀ a ∈ d.annotations, (a.marker = marker → P a) ∧
        (marker.container? = some a.marker → a.Allows "value" (IsRecords marker P)) := by
  unfold records
  rw [List.forall_mem_flatMap]
  refine forall₂_congr fun a _ => ?_
  unfold recordsIn
  split
  · next same =>
    have apart : marker.container? ≠ some a.marker := same ▸ marker.container?_ne_self
    rw [List.forall_mem_singleton, isRecord_toValue]
    exact ⟨fun ⟨_, holds⟩ => ⟨fun _ => holds, fun held => (apart held).elim⟩,
      fun ⟨holds, _⟩ => ⟨same, holds same⟩⟩
  · next other =>
    split
    · next held =>
      rw [← Annotation.allows_items]
      exact ⟨fun all => ⟨fun same => (other same).elim, fun _ => all⟩, fun all => all.2 held⟩
    · next apart => simp [other, apart]

end Declaration
end PluginDescriptor
