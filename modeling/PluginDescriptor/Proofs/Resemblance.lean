import PluginDescriptor.Annotation
import PluginDescriptor.Proofs.Relevance

namespace PluginDescriptor

universe u

open AnnotationValue

/-- The two ways in which messages quote a value: as JSON, and in full. -/
def AnnotationValue.IsQuotation (quote : AnnotationValue → String) : Prop :=
  quote = compact ∨ quote = describe

variable {V : AnnotationValue → AnnotationValue → Prop}

/-- The same fault, or the same but for a quoted value, which is related to the other. -/
inductive Fault.Echoes (V : AnnotationValue → AnnotationValue → Prop) : Fault → Fault → Prop
  | same (e : Fault) : Echoes V e e
  | quoted {quote : AnnotationValue → String} (style : IsQuotation quote) (m : Marker)
      (field : String) {v v' : AnnotationValue} (related : V v v') :
      Echoes V (.invalidValue m field (quote v)) (.invalidValue m field (quote v'))

/-- Both are there, and related, or neither is. -/
theorem optionRel_iff {α : Type u} {β : Type u} {R : α → β → Prop} {o : Option α} {o' : Option β} :
    Option.Rel R o o' ↔
      o = none ∧ o' = none ∨ ∃ a b, o = some a ∧ o' = some b ∧ R a b := by
  cases o <;> cases o' <;> simp

section InStep

variable {α α' β β' : Type u} {R : α → α' → Prop} {S : β → β' → Prop}

/-- Readings that both give results, which are related, or both fail, and with the same fault but for
a quoted value. -/
inductive InStep (V : AnnotationValue → AnnotationValue → Prop) (R : α → α' → Prop) :
    Except Fault α → Except Fault α' → Prop
  | ok {a : α} {a' : α'} (related : R a a') : InStep V R (.ok a) (.ok a')
  | error {e e' : Fault} (echoes : e.Echoes V e') : InStep V R (.error e) (.error e')

theorem InStep.refl (x : Except Fault α) : InStep V Eq x x := by
  cases x with
  | ok a => exact .ok rfl
  | error e => exact .error (.same e)

variable {x : Except Fault α} {x' : Except Fault α'}

theorem InStep.map {f : α → β} {f' : α' → β'} (inStep : InStep V R x x')
    (each : ∀ a a', R a a' → S (f a) (f' a')) : InStep V S (x.map f) (x'.map f') := by
  cases inStep with
  | ok related => exact .ok (each _ _ related)
  | error echoes => exact .error echoes

theorem InStep.bind {f : α → Except Fault β} {f' : α' → Except Fault β'}
    (inStep : InStep V R x x') (rest : ∀ a a', R a a' → InStep V S (f a) (f' a')) :
    InStep V S (x >>= f) (x' >>= f') := by
  cases inStep with
  | ok related => exact rest _ _ related
  | error echoes => exact .error echoes

/-- What comes after equal results is read from them alike. -/
theorem InStep.bind_eq {x x' : Except Fault α} {f : α → Except Fault β} {f' : α → Except Fault β'}
    (inStep : InStep V Eq x x') (rest : ∀ a, InStep V S (f a) (f' a)) :
    InStep V S (x >>= f) (x' >>= f') :=
  inStep.bind fun a _ same => same ▸ rest a

theorem InStep.mapM {f : α → Except Fault β} {f' : α' → Except Fault β'} {l : List α}
    {l' : List α'} (related : List.Forall₂ R l l')
    (each : ∀ a a', R a a' → InStep V S (f a) (f' a')) :
    InStep V (List.Forall₂ S) (l.mapM f) (l'.mapM f') := by
  induction related with
  | nil => exact .ok .nil
  | cons first _ ih =>
    rw [List.mapM_cons, List.mapM_cons]
    exact (each _ _ first).bind fun b b' same => ih.bind fun r r' rest => .ok (.cons same rest)

theorem InStep.mapM_eq {f : α → Except Fault β} {f' : α' → Except Fault β} {l : List α}
    {l' : List α'} (related : List.Forall₂ R l l')
    (each : ∀ a a', R a a' → InStep V Eq (f a) (f' a')) : InStep V Eq (l.mapM f) (l'.mapM f') := by
  have results := InStep.mapM related each
  rwa [List.forall₂_eq_eq_eq] at results

theorem InStep.foldlM {f f' : β → α → Except Fault β} (l : List α)
    (each : ∀ b a, InStep V Eq (f b a) (f' b a)) (start : β) :
    InStep V Eq (l.foldlM f start) (l.foldlM f' start) := by
  induction l generalizing start with
  | nil => exact .refl _
  | cons a r ih =>
    rw [List.foldlM_cons, List.foldlM_cons]
    exact (each start a).bind_eq ih

end InStep

/-- The fields that may hold several values, each with the marker of its annotation. A value that is no
array counts there as the only one. -/
def Marker.severalFields : List (Marker × String) :=
  [(.command, "aliases"), (.commands, "value"), (.permissions, "value"), (.permission, "children")]

/-- A field of an annotation with this marker may hold several values. -/
def Marker.TakesSeveral (m : Marker) (name : String) : Prop := (m, name) ∈ severalFields

instance (m : Marker) (name : String) : Decidable (m.TakesSeveral name) :=
  inferInstanceAs (Decidable (_ ∈ _))

theorem Marker.not_takesSeveral {name : String}
    (other : name ∉ severalFields.map Prod.snd) (m : Marker) : ¬ m.TakesSeveral name :=
  fun takes => other (List.mem_map_of_mem takes)

theorem Marker.not_takesSeveral_of_not_item {m : Marker} (apart : m ∉ items) (name : String) :
    ¬ m.TakesSeveral name := fun takes => by
  have marked : m ∈ severalFields.map Prod.fst := List.mem_map_of_mem takes
  have item : ∀ n ∈ severalFields.map Prod.fst, n ∈ items := by decide
  exact apart (item m marked)

/-- The annotations show related values in every field: the same number of them, one by one, and where
there can be only one it is set in both or in neither. -/
structure Annotation.Resembles (V : AnnotationValue → AnnotationValue → Prop)
    (a a' : Annotation) : Prop where
  marker : a.marker = a'.marker
  items : ∀ name, List.Forall₂ V (a.fieldItems name) (a'.fieldItems name)
  single : ∀ name, ¬ a.marker.TakesSeveral name → Option.Rel V (a.field? name) (a'.field? name)

/-- The values are of one kind. Flags and texts are the same, and annotations resemble each other. -/
inductive AnnotationValue.Resembles (V : AnnotationValue → AnnotationValue → Prop) :
    AnnotationValue → AnnotationValue → Prop
  | bool (b : Bool) : Resembles V (.bool b) (.bool b)
  | str (s : String) : Resembles V (.str s) (.str s)
  | array (items items' : List AnnotationValue) : Resembles V (.array items) (.array items')
  | nested {a a' : Annotation} (inside : a.Resembles V a') : Resembles V a.toValue a'.toValue

/-- Related values resemble each other. -/
def IsSemblance (V : AnnotationValue → AnnotationValue → Prop) : Prop :=
  ∀ v v', V v v' → v.Resembles V v'

section Annotations

variable {a a' : Annotation}

namespace Annotation

theorem Resembles.invalid (resembles : a.Resembles V a') (name : String) {v v' : AnnotationValue}
    (related : V v v') : (a.invalid name v).Echoes V (a'.invalid name v') := by
  unfold Annotation.invalid
  rw [resembles.marker]
  exact .quoted (Or.inl rfl) _ name related

theorem requiredText_eq (a : Annotation) (name : String) :
    a.requiredText name = a.text? name >>= fun text =>
      match text with
      | none => .error (.missingField a.marker name)
      | some s => .ok s := by
  unfold requiredText
  cases a.text? name with
  | error e => rfl
  | ok text => cases text <;> rfl

variable (semblance : IsSemblance V) (resembles : a.Resembles V a')

include semblance resembles

theorem text?_inStep (name : String) (single : ¬ a.marker.TakesSeveral name) :
    InStep V Eq (a.text? name) (a'.text? name) := by
  unfold text?
  rcases optionRel_iff.1 (resembles.single name single) with
    ⟨unset, unset'⟩ | ⟨v, v', set, set', related⟩
  · rw [unset, unset']
    exact .ok rfl
  · have echoes := resembles.invalid name related
    rw [set, set']
    cases semblance v v' related with
    | str s => exact .ok rfl
    | bool | array | nested => exact .error echoes

theorem requiredText_inStep (name : String) (single : ¬ a.marker.TakesSeveral name) :
    InStep V Eq (a.requiredText name) (a'.requiredText name) := by
  rw [requiredText_eq, requiredText_eq, resembles.marker]
  exact (text?_inStep semblance resembles name single).bind_eq fun _ => .refl _

theorem flag?_inStep (name : String) (single : ¬ a.marker.TakesSeveral name) :
    InStep V Eq (a.flag? name) (a'.flag? name) := by
  unfold flag?
  rcases optionRel_iff.1 (resembles.single name single) with
    ⟨unset, unset'⟩ | ⟨v, v', set, set', related⟩
  · rw [unset, unset']
    exact .ok rfl
  · have echoes := resembles.invalid name related
    rw [set, set']
    cases semblance v v' related with
    | bool b => exact .ok rfl
    | str | array | nested => exact .error echoes

theorem texts_inStep (name : String) : InStep V Eq (a.texts name) (a'.texts name) := by
  rw [texts_eq_mapM, texts_eq_mapM]
  refine InStep.mapM_eq (resembles.items name) fun v v' related => ?_
  have echoes := resembles.invalid name related
  cases semblance v v' related with
  | str s => exact .ok rfl
  | bool | array | nested => exact .error echoes

/-- The records of a field resemble each other one by one, and all of them have the marker. -/
theorem records_inStep (name : String) (marker : Marker) :
    InStep V (List.Forall₂ fun b b' => b.marker = marker ∧ b.Resembles V b')
      (a.records name marker) (a'.records name marker) := by
  rw [records_eq_mapM, records_eq_mapM]
  refine InStep.mapM (resembles.items name) fun v v' related => ?_
  have echoes := resembles.invalid name related
  cases semblance v v' related with
  | bool | str | array => exact .error echoes
  | @nested b b' inside =>
    simp only [toValue, recordItem]
    by_cases same : b.marker = marker
    · rw [if_pos same, if_pos (inside.marker ▸ same)]
      exact .ok ⟨same, inside⟩
    · rw [if_neg same, if_neg (inside.marker ▸ same)]
      exact .error echoes

end Annotation

open Annotation

variable (semblance : IsSemblance V) (resembles : a.Resembles V a')

include semblance resembles

theorem Command.ofAnnotation_inStep :
    InStep V Eq (Command.ofAnnotation a) (Command.ofAnnotation a') := by
  have text (name : String) (other : name ∉ Marker.severalFields.map Prod.snd) :=
    text?_inStep semblance resembles name (Marker.not_takesSeveral other _)
  have name := requiredText_inStep semblance resembles "name"
    (Marker.not_takesSeveral (by decide) _)
  unfold ofAnnotation
  exact name.bind_eq fun _ => (texts_inStep semblance resembles _).bind_eq fun _ =>
    (text _ (by decide)).bind_eq fun _ => (text _ (by decide)).bind_eq fun _ =>
    (text _ (by decide)).bind_eq fun _ => (text _ (by decide)).bind_eq fun _ => .refl _

theorem ChildPermission.ofAnnotation_inStep :
    InStep V Eq (ChildPermission.ofAnnotation a) (ChildPermission.ofAnnotation a') := by
  have name := requiredText_inStep semblance resembles "name"
    (Marker.not_takesSeveral (by decide) _)
  have inherit := flag?_inStep semblance resembles "inherit"
    (Marker.not_takesSeveral (by decide) _)
  unfold ofAnnotation
  exact name.bind_eq fun _ => inherit.bind_eq fun _ => .refl _

theorem Permission.defaultOf_inStep : InStep V Eq (defaultOf a) (defaultOf a') := by
  unfold defaultOf
  rw [resembles.marker]
  exact (text?_inStep semblance resembles _ (Marker.not_takesSeveral (by decide) _)).bind_eq
    fun _ => .refl _

theorem Permission.ofAnnotation_inStep :
    InStep V Eq (Permission.ofAnnotation a) (Permission.ofAnnotation a') := by
  have name := requiredText_inStep semblance resembles "name"
    (Marker.not_takesSeveral (by decide) _)
  have description := text?_inStep semblance resembles "desc"
    (Marker.not_takesSeveral (by decide) _)
  unfold ofAnnotation
  refine (defaultOf_inStep semblance resembles).bind_eq fun _ => ?_
  refine (records_inStep semblance resembles _ _).bind fun children children' related => ?_
  refine (InStep.mapM_eq related fun _ _ child =>
    ChildPermission.ofAnnotation_inStep semblance child.2).bind_eq fun _ => ?_
  exact name.bind_eq fun _ => description.bind_eq fun _ => .refl _

theorem Registry.item_inStep {r : Registry} (member : r ∈ both) :
    InStep V Eq (r.item a) (r.item a') := by
  simp only [both, List.mem_cons, List.not_mem_nil, or_false] at member
  rcases member with rfl | rfl
  · exact (Command.ofAnnotation_inStep semblance resembles).bind_eq fun _ => .refl _
  · exact (Permission.ofAnnotation_inStep semblance resembles).bind_eq fun _ => .refl _

end Annotations

namespace Declaration

/-- Declarations that are the same but for their annotations, which are related one by one. -/
structure Matches (A : Annotation → Annotation → Prop) (d d' : Declaration) : Prop where
  qualifiedName : d.qualifiedName = d'.qualifiedName
  kind : d.kind = d'.kind
  enclosing : d.enclosing = d'.enclosing
  modifiers : d.modifiers = d'.modifiers
  annotations : List.Forall₂ A d.annotations d'.annotations

theorem Matches.mono {A B : Annotation → Annotation → Prop} {d d' : Declaration}
    (related : d.Matches A d') (weaker : ∀ a a', A a a' → B a a') : d.Matches B d' where
  qualifiedName := related.qualifiedName
  kind := related.kind
  enclosing := related.enclosing
  modifiers := related.modifiers
  annotations := related.annotations.imp weaker

/-- Declarations that are the same but for annotations, which resemble each other. -/
abbrev Resembles (V : AnnotationValue → AnnotationValue → Prop) : Declaration → Declaration → Prop :=
  Matches fun a a' => a.Resembles V a'

variable {d d' : Declaration} (resembles : d.Resembles V d')

include resembles

theorem Resembles.hasMarker (marker : Marker) : d.hasMarker marker = d'.hasMarker marker := by
  have any {l l' : List Annotation} (each : List.Forall₂ (fun a a' => a.Resembles V a') l l') :
      l.any (·.marker == marker) = l'.any (·.marker == marker) := by
    induction each with
    | nil => rfl
    | cons first _ ih => rw [List.any_cons, List.any_cons, first.marker, ih]
  exact any resembles.annotations

theorem Resembles.violation? : EntryPoint.violation? d = EntryPoint.violation? d' := by
  unfold EntryPoint.violation? isTopLevel hasModifier
  rw [resembles.kind, resembles.enclosing, resembles.modifiers]

theorem Resembles.simpleName : d.simpleName = d'.simpleName := by
  unfold Declaration.simpleName
  rw [resembles.qualifiedName]

theorem Resembles.find?_marker (marker : Marker) :
    Option.Rel (fun a a' => a.Resembles V a') (d.annotations.find? (·.marker == marker))
      (d'.annotations.find? (·.marker == marker)) := by
  have find {l l' : List Annotation} (each : List.Forall₂ (fun a a' => a.Resembles V a') l l') :
      Option.Rel (fun a a' => a.Resembles V a') (l.find? (·.marker == marker))
        (l'.find? (·.marker == marker)) := by
    induction each with
    | nil => exact .none
    | @cons a a' _ _ first _ ih =>
      rw [List.find?_cons, List.find?_cons, first.marker]
      cases a'.marker == marker with
      | true => exact .some first
      | false => exact ih
  exact find resembles.annotations

theorem instances_inStep (semblance : IsSemblance V) (marker : Marker) :
    InStep V (List.Forall₂ fun b b' => b.marker = marker ∧ b.Resembles V b')
      (d.instances marker) (d'.instances marker) := by
  unfold instances
  refine (InStep.mapM resembles.annotations fun a a' first => ?_).map fun _ _ rows =>
    List.rel_flatten rows
  unfold instancesIn
  rw [← first.marker]
  split
  · next own => exact .ok (.cons ⟨own, first⟩ .nil)
  · split
    · exact Annotation.records_inStep semblance first _ _
    · exact .ok .nil

end Declaration

/-- Scanners that find the same handles, under which declarations resemble each other. -/
structure Scanner.Resembles (V : AnnotationValue → AnnotationValue → Prop)
    (s s' : Scanner) : Prop where
  scan : s.scan = s'.scan
  declaration : ∀ h, Option.Rel (Declaration.Resembles V) (s.declaration h)
    (s'.declaration h)

section Scanners

variable {s s' : Scanner} (resembles : s.Resembles V s')

include resembles

theorem Scanner.Resembles.firstInstance? (h : Handle) (marker : Marker) :
    Option.Rel (fun a a' => a.Resembles V a') (s.firstInstance? h marker)
      (s'.firstInstance? h marker) := by
  unfold Scanner.firstInstance?
  rcases optionRel_iff.1 (resembles.declaration h) with
    ⟨unknown, unknown'⟩ | ⟨d, d', known, known', declared⟩
  · rw [unknown, unknown']
    exact .none
  · rw [known, known']
    exact declared.find?_marker marker

/-- What is said of the plugin as a whole is set in both or in neither. -/
theorem Scanner.Resembles.field? (h : Handle) {marker : Marker} (apart : marker ∉ Marker.items)
    (name : String) :
    Option.Rel V (s.field? h marker name) (s'.field? h marker name) := by
  have marked (a : Annotation) (found : s.firstInstance? h marker = some a) :
      a.marker = marker := by
    unfold Scanner.firstInstance? at found
    split at found
    · cases found
    · simpa using List.find?_some found
  unfold Scanner.field?
  rcases optionRel_iff.1 (resembles.firstInstance? h marker) with
    ⟨none, none'⟩ | ⟨a, a', first, first', annotated⟩
  · rw [none, none']
    exact .none
  · have single : ¬ a.marker.TakesSeveral name := by
      rw [marked a first]
      exact Marker.not_takesSeveral_of_not_item apart name
    rw [first, first']
    exact annotated.single name single

theorem EntryPoint.choose_eq_of_resembles (candidates : List Handle) :
    choose s candidates = choose s' candidates := by
  match candidates with
  | [] => rfl
  | h :: g :: rest => rfl
  | [h] =>
    simp only [choose]
    rcases optionRel_iff.1 (resembles.declaration h) with
      ⟨unknown, unknown'⟩ | ⟨d, d', known, known', declared⟩
    · rw [unknown, unknown']
    · simp only [known, known', declared.violation?, declared.qualifiedName]

theorem Registry.checkedHolders_eq_of_resembles (r : Registry) :
    r.checkedHolders s = r.checkedHolders s' := by
  unfold checkedHolders
  rw [resembles.scan]
  congr
  funext h
  rcases optionRel_iff.1 (resembles.declaration h) with
    ⟨unknown, unknown'⟩ | ⟨d, d', known, known', declared⟩
  · rw [unknown, unknown']
  · simp only [known, known', declared.kind, declared.qualifiedName]

variable (semblance : IsSemblance V)

include semblance

theorem Scanner.instances_inStep (h : Handle) (marker : Marker) :
    InStep V (List.Forall₂ fun b b' => b.marker = marker ∧ b.Resembles V b')
      (s.instances h marker) (s'.instances h marker) := by
  unfold instances
  rcases optionRel_iff.1 (resembles.declaration h) with
    ⟨unknown, unknown'⟩ | ⟨d, d', known, known', declared⟩
  · rw [unknown, unknown']
    exact .ok .nil
  · rw [known, known']
    exact Declaration.instances_inStep declared semblance marker

namespace Registry

variable {r : Registry} (member : r ∈ both)

include member

theorem itemsOf_inStep (h : Handle) : InStep V Eq (r.itemsOf s h) (r.itemsOf s' h) := by
  unfold itemsOf
  refine (Scanner.instances_inStep resembles semblance h r.single).bind fun l l' related => ?_
  exact (InStep.mapM_eq related fun _ _ annotated =>
    item_inStep semblance annotated.2 member).bind_eq fun _ => .refl _

theorem part_inStep (key : String) (entry : Handle) :
    InStep V Eq (r.part key s entry) (r.part key s' entry) := by
  have merged : InStep V Eq (r.merge s entry) (r.merge s' entry) := by
    unfold merge
    rw [checkedHolders_eq_of_resembles resembles]
    refine (InStep.refl (r.checkedHolders s')).bind_eq fun holders => ?_
    exact InStep.foldlM _ (fun merged h =>
      (itemsOf_inStep resembles semblance member h).bind_eq fun _ => .refl _) ∅
  exact merged.bind_eq fun _ => .refl _

end Registry

end Scanners

/-- Parts go in step until the first that cannot be read. -/
theorem Document.fill_inStep {parts parts' : List Part}
    (each : List.Forall₂ (InStep V Eq) parts parts') (d : Document) :
    (d.fill parts).1 = (d.fill parts').1 ∧
      Option.Rel (Fault.Echoes V) (d.fill parts).2 (d.fill parts').2 := by
  induction each generalizing d with
  | nil => exact ⟨rfl, .none⟩
  | cons first _ ih =>
    cases first with
    | error echoes => exact ⟨rfl, .some echoes⟩
    | @ok given _ same =>
      subst same
      cases given with
      | none => exact ih d
      | some entry => exact ih (d.insert entry.1 entry.2)

namespace Source

/-- Sources of metadata of which the annotations resemble each other. -/
structure Resembles (V : AnnotationValue → AnnotationValue → Prop) (t t' : Source) : Prop where
  scanner : t.scanner.Resembles V t'.scanner
  entry : t.entry = t'.entry
  declaration : t.declaration.Resembles V t'.declaration
  defaultVersion : t.defaultVersion = t'.defaultVersion

variable {t t' : Source} (semblance : IsSemblance V) (resembles : t.Resembles V t')

include semblance resembles

theorem scalar?_inStep {marker : Marker} (apart : marker ∉ Marker.items) (name : String) :
    InStep V Eq (t.scalar? marker name) (t'.scalar? marker name) := by
  unfold scalar?
  rw [resembles.entry]
  rcases optionRel_iff.1 (resembles.scanner.field? t'.entry apart name) with
    ⟨unset, unset'⟩ | ⟨v, v', set, set', related⟩
  · rw [unset, unset']
    exact .ok rfl
  · have echoes := Fault.Echoes.quoted (V := V) (Or.inr rfl) marker name related
    rw [set, set']
    cases semblance v v' related with
    | str s => exact .refl _
    | bool | array | nested => exact .error echoes

theorem values_inStep {marker : Marker} (apart : marker ∉ Marker.items) :
    InStep V Eq (t.values marker) (t'.values marker) := by
  unfold values
  rw [resembles.entry]
  refine (Scanner.instances_inStep resembles.scanner semblance t'.entry marker).bind
    fun l l' related => ?_
  refine InStep.mapM_eq related fun a a' annotated => ?_
  refine Annotation.requiredText_inStep semblance annotated.2 _ ?_
  rw [annotated.1]
  exact Marker.not_takesSeveral_of_not_item apart "value"

theorem metadata_inStep : List.Forall₂ (InStep V Eq) t.metadata t'.metadata := by
  have scalar {marker : Marker} (apart : marker ∉ Marker.items) :=
    scalar?_inStep semblance resembles apart
  have text (key : String) (marker : Marker) (apart : marker ∉ Marker.items) :
      InStep V Eq (t.textPart key marker) (t'.textPart key marker) :=
    (scalar apart "value").bind_eq fun _ => .refl _
  have list (key : String) (marker : Marker) (apart : marker ∉ Marker.items) :
      InStep V Eq (t.listPart key marker) (t'.listPart key marker) :=
    (values_inStep semblance resembles apart).bind_eq fun _ => .refl _
  have name : InStep V Eq t.namePart t'.namePart := by
    unfold namePart
    rw [resembles.declaration.simpleName]
    exact (scalar (by decide) "name").bind_eq fun _ => .refl _
  have version : InStep V Eq t.versionPart t'.versionPart := by
    unfold versionPart
    rw [resembles.defaultVersion]
    exact (scalar (by decide) "version").bind_eq fun _ => .refl _
  have load : InStep V Eq t.loadPart t'.loadPart :=
    (scalar (by decide) "value").bind_eq fun _ => .refl _
  have author : InStep V Eq t.authorPart t'.authorPart :=
    (values_inStep semblance resembles (by decide)).bind_eq fun _ => .refl _
  unfold metadata
  rw [resembles.declaration.qualifiedName]
  exact .cons (.refl _) <| .cons name <| .cons version <| .cons (text _ _ (by decide)) <|
    .cons load <| .cons author <| .cons (text _ _ (by decide)) <| .cons (text _ _ (by decide)) <|
    .cons (list _ _ (by decide)) <| .cons (list _ _ (by decide)) <|
    .cons (list _ _ (by decide)) <| .cons (list _ _ (by decide)) .nil

theorem parts_inStep : List.Forall₂ (InStep V Eq) t.parts t'.parts := by
  have registry {r : Registry} (member : r ∈ Registry.both) (key : String) :
      InStep V Eq (r.part key t.scanner t.entry) (r.part key t'.scanner t'.entry) := by
    rw [resembles.entry]
    exact Registry.part_inStep resembles.scanner semblance member key t'.entry
  have apiVersion : InStep V Eq t.apiVersionPart t'.apiVersionPart :=
    (scalar?_inStep semblance resembles (by decide) "value").bind_eq fun _ => .refl _
  exact List.rel_append (metadata_inStep semblance resembles) <|
    .cons (registry (by simp [Registry.both]) _) <| .cons (registry (by simp [Registry.both]) _) <|
    .cons apiVersion .nil

end Source

/-- Scanners that resemble each other lead to the same descriptor, or to faults that differ at most in a
quoted value. -/
theorem assemble_inStep (semblance : IsSemblance V) {s s' : Scanner} (resembles : s.Resembles V s')
    (defaultVersion : String) :
    InStep V Eq (assemble s defaultVersion) (assemble s' defaultVersion) := by
  unfold assemble
  rw [resembles.scan, EntryPoint.choose_eq_of_resembles resembles]
  cases EntryPoint.choose s' (s'.scan .plugin) with
  | error e => exact .refl _
  | ok chosen =>
    cases chosen with
    | none => exact .refl _
    | some entry =>
      dsimp only
      rcases optionRel_iff.1 (resembles.declaration entry) with
        ⟨unknown, unknown'⟩ | ⟨d, d', known, known', declared⟩
      · rw [unknown, unknown']
        exact .refl _
      · rw [known, known']
        have sources : Source.Resembles V ⟨s, entry, d, defaultVersion⟩
            ⟨s', entry, d', defaultVersion⟩ := ⟨resembles, rfl, declared, rfl⟩
        have filled := Document.fill_inStep (Source.parts_inStep semblance sources) ∅
        dsimp only
        generalize Document.fill ∅ (Source.parts ⟨s, entry, d, defaultVersion⟩) = done,
          Document.fill ∅ (Source.parts ⟨s', entry, d', defaultVersion⟩) = done' at filled ⊢
        obtain ⟨document, fault⟩ := done
        obtain ⟨document', fault'⟩ := done'
        obtain ⟨documents, faults⟩ := filled
        cases documents
        cases faults with
        | none => exact .refl _
        | some echoes => exact .error echoes

/-- Snapshots resemble each other as scanners if their declarations do, one by one. -/
theorem Snapshot.scanner_resembles {s s' : Snapshot}
    (each : List.Forall₂ (Declaration.Resembles V)
      s.declarations s'.declarations) : s.scanner.Resembles V s'.scanner := by
  have positions (marker : Marker) {l l' : List Declaration}
      (each : List.Forall₂ (Declaration.Resembles V) l l') (n : Nat) :
      Snapshot.positions marker n l = Snapshot.positions marker n l' := by
    induction each generalizing n with
    | nil => rfl
    | cons first _ ih => rw [Snapshot.positions, Snapshot.positions, first.hasMarker, ih]
  have entry {l l' : List Declaration}
      (each : List.Forall₂ (Declaration.Resembles V) l l') (h : Nat) :
      Option.Rel (Declaration.Resembles V) l[h]? l'[h]? := by
    induction each generalizing h with
    | nil => exact .none
    | cons first _ ih =>
      cases h with
      | zero => exact .some first
      | succ h => exact ih h
  exact ⟨funext fun marker => positions marker each 0, entry each⟩

end PluginDescriptor
