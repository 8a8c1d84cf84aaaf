import PluginDescriptor.Assembly
import PluginDescriptor.Proofs.Json.Snapshot
import PluginDescriptor.Proofs.Resemblance

namespace PluginDescriptor

theorem Entries.find?_eq_some_iff {α β : Type} [DecidableEq α] {l : List (α × β)}
    (distinct : (keys l).Nodup) {k : α} {v : β} : find? k l = some v ↔ (k, v) ∈ l := by
  induction l with
  | nil => simp [find?]
  | cons e r ih =>
    obtain ⟨k', v'⟩ := e
    obtain ⟨new, distinct'⟩ := List.nodup_cons.1 distinct
    rw [find?, List.mem_cons, Prod.mk.injEq]
    split
    · next same =>
      subst same
      have absent : (k', v) ∉ r := fun member =>
        new (List.mem_map.2 ⟨(k', v), member, rfl⟩)
      simp [absent, eq_comm]
    · next other => simp [Ne.symm other, ih distinct']

namespace AnnotationValue

/-- Values that differ at most in the order of fields, at any depth. No annotation has two fields of
one name. -/
inductive Shuffles : AnnotationValue → AnnotationValue → Prop
  | bool (b : Bool) : Shuffles (.bool b) (.bool b)
  | str (s : String) : Shuffles (.str s) (.str s)
  | array {items items' : List AnnotationValue} (each : List.Forall₂ Shuffles items items') :
      Shuffles (.array items) (.array items')
  | nested {m : Marker} {fields fields' : List (String × AnnotationValue)}
      (distinct : (Entries.keys fields).Nodup)
      (names : (Entries.keys fields).Perm (Entries.keys fields'))
      (under : ∀ k v v', Entries.find? k fields = some v → Entries.find? k fields' = some v' →
        Shuffles v v') :
      Shuffles (.nested m fields) (.nested m fields')

mutual

/-- No annotation inside the value has more than one field. -/
def isPlain : AnnotationValue → Bool
  | .bool _ => true
  | .str _ => true
  | .array items => arePlain items
  | .nested _ [] => true
  | .nested _ [(_, v)] => v.isPlain
  | .nested _ (_ :: _ :: _) => false

def arePlain : List AnnotationValue → Bool
  | [] => true
  | v :: r => v.isPlain && arePlain r

end

mutual

/-- Without several fields there is nothing to be put in another order. -/
theorem eq_of_isPlain :
    (v : AnnotationValue) → {v' : AnnotationValue} → v.Shuffles v' → v.isPlain → v = v'
  | .bool b, _, .bool _, _ => rfl
  | .str s, _, .str _, _ => rfl
  | .array items, _, .array each, plain =>
    congrArg array (eq_of_arePlain items each (by rwa [isPlain] at plain))
  | .nested m [], _, .nested _ names _, _ => by
    have none := names.nil_eq
    rw [eq_comm, Entries.keys, List.map_eq_nil_iff] at none
    rw [none]
  | .nested m [(k, v)], .nested _ fields', .nested _ names under, plain => by
    obtain ⟨⟨k', v'⟩, single, same⟩ := List.map_eq_singleton_iff.1 names.symm.eq_singleton
    cases same
    subst single
    rw [isPlain] at plain
    rw [eq_of_isPlain v (under k v v' (if_pos rfl) (if_pos rfl)) plain]
  | .nested m (_ :: _ :: _), _, _, plain => by
    rw [isPlain] at plain
    cases plain

theorem eq_of_arePlain : (items : List AnnotationValue) → {items' : List AnnotationValue} →
    List.Forall₂ Shuffles items items' → arePlain items → items = items'
  | [], _, .nil, _ => rfl
  | v :: r, _, .cons first rest, plain => by
    rw [arePlain, Bool.and_eq_true] at plain
    rw [eq_of_isPlain v first plain.1, eq_of_arePlain r rest plain.2]

end

mutual

theorem shuffles_refl : (v : AnnotationValue) → v.WellFormed → v.Shuffles v
  | .bool b, _ => .bool b
  | .str s, _ => .str s
  | .array items, wf => .array (items_refl items wf)
  | .nested m fields, wf => by
    refine .nested wf.1 (.refl _) fun k v v' found found' => ?_
    obtain rfl := Option.some.inj (found.symm.trans found')
    exact fields_refl fields wf.2 k v found

theorem items_refl : (items : List AnnotationValue) → WellFormedItems items →
    List.Forall₂ Shuffles items items
  | [], _ => .nil
  | v :: r, wf => .cons (shuffles_refl v wf.1) (items_refl r wf.2)

theorem fields_refl : (fields : List (String × AnnotationValue)) → WellFormedFields fields →
    ∀ k v, Entries.find? k fields = some v → v.Shuffles v
  | (name, w) :: r, wf, k, v, found => by
    rw [Entries.find?] at found
    split at found
    · obtain rfl := Option.some.inj found
      exact shuffles_refl w wf.1
    · exact fields_refl r wf.2 k v found

end

/-- The fields of an annotation may be put in any order. -/
theorem shuffles_of_perm {m : Marker} {fields fields' : List (String × AnnotationValue)}
    (wf : (nested m fields).WellFormed) (perm : fields.Perm fields') :
    (nested m fields).Shuffles (.nested m fields') := by
  have names : (Entries.keys fields).Perm (Entries.keys fields') := perm.map _
  refine .nested wf.1 names fun k v v' found found' => ?_
  have same : (k, v) ∈ fields' := perm.mem_iff.1 ((Entries.find?_eq_some_iff wf.1).1 found)
  rw [(Entries.find?_eq_some_iff (names.nodup_iff.1 wf.1)).2 same] at found'
  obtain rfl := Option.some.inj found'
  exact fields_refl fields wf.2 k v found

theorem shuffles_under {m : Marker} (name : String) {v v' : AnnotationValue}
    (shuffled : v.Shuffles v') : (nested m [(name, v)]).Shuffles (.nested m [(name, v')]) := by
  refine .nested (List.nodup_singleton _) (.refl _) fun k w w' found found' => ?_
  rw [Entries.find?] at found found'
  split at found
  · next same =>
    rw [if_pos same] at found'
    cases found
    cases found'
    exact shuffled
  · cases found

end AnnotationValue

namespace Fault

open AnnotationValue (IsQuotation)

/-- The fault quotes a value. -/
def Quotes (e : Fault) (v : AnnotationValue) : Prop :=
  ∃ quote m field, IsQuotation quote ∧ e = .invalidValue m field (quote v)

/-- The same fault, or the same but for the order of fields in a quoted value that has an
annotation with several fields. -/
inductive Requotes : Fault → Fault → Prop
  | same (e : Fault) : Requotes e e
  | quoted {quote : AnnotationValue → String} (style : IsQuotation quote) (m : Marker)
      (field : String) {v v' : AnnotationValue} (shuffled : v.Shuffles v') (several : ¬ v.isPlain) :
      Requotes (.invalidValue m field (quote v)) (.invalidValue m field (quote v'))

theorem requotes_of_shuffles {quote : AnnotationValue → String} (style : IsQuotation quote)
    (m : Marker) (field : String) {v v' : AnnotationValue} (shuffled : v.Shuffles v') :
    Requotes (.invalidValue m field (quote v)) (.invalidValue m field (quote v')) := by
  by_cases plain : v.isPlain
  · rw [AnnotationValue.eq_of_isPlain v shuffled plain]
    exact .same _
  · exact .quoted style m field shuffled plain

/-- A fault that quotes no annotation with several fields is the same. -/
theorem Requotes.eq {e e' : Fault} (requotes : e.Requotes e')
    (plain : ∀ v, e.Quotes v → v.isPlain) : e = e' := by
  cases requotes with
  | same => rfl
  | quoted style m field shuffled several =>
    exact (several (plain _ ⟨_, m, field, style, rfl⟩)).elim

end Fault

section Parallel

universe u

variable {α α' : Type u} {R : α → α' → Prop}

/-- Readings that give related results or fail with faults that differ at most in the order of
quoted fields. -/
inductive Parallel (R : α → α' → Prop) : Except Fault α → Except Fault α' → Prop
  | ok {a : α} {a' : α'} (related : R a a') : Parallel R (.ok a) (.ok a')
  | error {e e' : Fault} (requotes : e.Requotes e') : Parallel R (.error e) (.error e')

/-- Readings that go in step under another order of fields. -/
theorem Parallel.of_inStep {x : Except Fault α} {x' : Except Fault α'}
    (inStep : InStep AnnotationValue.Shuffles R x x') : Parallel R x x' := by
  cases inStep with
  | ok related => exact .ok related
  | error echoes =>
    cases echoes with
    | same => exact .error (.same _)
    | quoted style m field shuffled => exact .error (Fault.requotes_of_shuffles style m field shuffled)

end Parallel

namespace Annotation

/-- Annotations that differ at most in the order of fields, at any depth. -/
def Shuffles (a a' : Annotation) : Prop := a.toValue.Shuffles a'.toValue

variable {a a' : Annotation}

theorem Shuffles.marker (shuffles : a.Shuffles a') : a.marker = a'.marker := by
  obtain ⟨m, fields⟩ := a
  obtain ⟨m', fields'⟩ := a'
  cases shuffles
  rfl

/-- A name is set in both or in neither. -/
theorem Shuffles.field? (shuffles : a.Shuffles a') (name : String) :
    a.field? name = none ∧ a'.field? name = none ∨
      ∃ v v', a.field? name = some v ∧ a'.field? name = some v' ∧ v.Shuffles v' := by
  obtain ⟨m, fields⟩ := a
  obtain ⟨m', fields'⟩ := a'
  cases shuffles with
  | nested distinct names under =>
    unfold Annotation.field?
    cases found : Entries.find? name fields with
    | none =>
      refine Or.inl ⟨rfl, ?_⟩
      rw [Entries.find?_eq_none_iff, ← names.mem_iff, ← Entries.find?_eq_none_iff, found]
    | some v =>
      cases found' : Entries.find? name fields' with
      | none =>
        rw [Entries.find?_eq_none_iff, ← names.mem_iff, ← Entries.find?_eq_none_iff, found] at found'
        cases found'
      | some v' => exact Or.inr ⟨v, v', rfl, rfl, under name v v' found found'⟩

theorem Shuffles.fieldItems (shuffles : a.Shuffles a') (name : String) :
    List.Forall₂ AnnotationValue.Shuffles (a.fieldItems name) (a'.fieldItems name) := by
  unfold Annotation.fieldItems
  rcases shuffles.field? name with ⟨unset, unset'⟩ | ⟨v, v', set, set', shuffled⟩
  · rw [unset, unset']
    exact .nil
  · rw [set, set']
    cases shuffled with
    | array each => exact each
    | bool b => exact .cons (.bool b) .nil
    | str s => exact .cons (.str s) .nil
    | nested distinct names under => exact .cons (.nested distinct names under) .nil

/-- Every reader sees the same in both, but for the order of fields in a value. -/
theorem Shuffles.resembles (shuffles : a.Shuffles a') :
    a.Resembles AnnotationValue.Shuffles a' where
  marker := shuffles.marker
  items := shuffles.fieldItems
  single name _ := optionRel_iff.2 (shuffles.field? name)

end Annotation

theorem AnnotationValue.isSemblance_shuffles : IsSemblance Shuffles := by
  intro v v' shuffled
  have whole := shuffled
  cases shuffled with
  | bool b => exact .bool b
  | str s => exact .str s
  | array each => exact .array _ _
  | @nested m fields fields' =>
    have annotated : Annotation.Shuffles ⟨m, fields⟩ ⟨m, fields'⟩ := whole
    exact .nested annotated.resembles

namespace Declaration

/-- Declarations that differ at most in the order of fields. -/
structure Shuffles (d d' : Declaration) : Prop where
  qualifiedName : d.qualifiedName = d'.qualifiedName
  kind : d.kind = d'.kind
  enclosing : d.enclosing = d'.enclosing
  modifiers : d.modifiers = d'.modifiers
  annotations : List.Forall₂ Annotation.Shuffles d.annotations d'.annotations

theorem Shuffles.resembles {d d' : Declaration} (shuffles : d.Shuffles d') :
    d.Resembles AnnotationValue.Shuffles d' where
  qualifiedName := shuffles.qualifiedName
  kind := shuffles.kind
  enclosing := shuffles.enclosing
  modifiers := shuffles.modifiers
  annotations := shuffles.annotations.imp fun _ _ annotated => annotated.resembles

end Declaration

theorem assemble_parallel {s s' : Scanner} (shuffles : s.Resembles AnnotationValue.Shuffles s')
    (defaultVersion : String) :
    Parallel Eq (assemble s defaultVersion) (assemble s' defaultVersion) :=
  .of_inStep (assemble_inStep AnnotationValue.isSemblance_shuffles shuffles defaultVersion)

namespace Snapshot

/-- Snapshots that differ at most in the order of fields. -/
def Shuffles (s s' : Snapshot) : Prop :=
  List.Forall₂ Declaration.Shuffles s.declarations s'.declarations

theorem Shuffles.scanner {s s' : Snapshot} (shuffles : s.Shuffles s') :
    s.scanner.Resembles AnnotationValue.Shuffles s'.scanner :=
  scanner_resembles (shuffles.imp fun _ _ declared => declared.resembles)

end Snapshot

/-- The descriptor of the program whose snapshot a text gives. -/
def assembleText (text defaultVersion : String) : Except Fault (Option Document) :=
  match Snapshot.ofText text with
  | .error why => .error (.unreadableSnapshot why)
  | .ok s => assemble s.scanner defaultVersion

/-- The order in which the fields of annotations are kept, or written in the text of a snapshot,
decides nothing but the order of fields in a quoted value. Where a run does not fail with the
quotation of an annotation with several fields, its result and everything reported is the same under
every order. -/
theorem assemble_shuffled {s s' : Snapshot} (shuffles : s.Shuffles s') (defaultVersion : String) :
    Parallel Eq (assemble s.scanner defaultVersion) (assemble s'.scanner defaultVersion) ∧
      ((∀ e v, assemble s.scanner defaultVersion = .error e → e.Quotes v → v.isPlain) →
        ∀ reported, assembleReporting s.scanner defaultVersion reported =
          assembleReporting s'.scanner defaultVersion reported) ∧
      (s.WellFormed → s'.WellFormed → s.toJson.depth ≤ 127 → s'.toJson.depth ≤ 127 →
        Parallel Eq (assembleText s.compact defaultVersion)
          (assembleText s'.compact defaultVersion)) := by
  have parallel := assemble_parallel shuffles.scanner defaultVersion
  refine ⟨parallel, fun plain reported => ?_, fun wf wf' nests nests' => ?_⟩
  · have same : assemble s.scanner defaultVersion = assemble s'.scanner defaultVersion := by
      generalize assemble s.scanner defaultVersion = x, assemble s'.scanner defaultVersion = x'
        at parallel plain
      cases parallel with
      | ok related => rw [related]
      | error requotes => rw [requotes.eq fun v quotes => plain _ v rfl quotes]
    unfold assembleReporting
    rw [same]
  · have read : Snapshot.ofText s.compact = .ok s := (Snapshot.takes_reader wf nests).run
    have read' : Snapshot.ofText s'.compact = .ok s' := (Snapshot.takes_reader wf' nests').run
    unfold assembleText
    rw [read, read']
    exact parallel

/-- A plugin with one command that has these fields. -/
def Snapshot.commanding (fields : List (String × AnnotationValue)) : Snapshot where
  declarations :=
    [{ qualifiedName := "demo.Main", kind := .classType, enclosing := .package "demo",
       annotations := [⟨.plugin, []⟩, ⟨.command, fields⟩] }]

/-- The fields of a command. -/
def Command.flying : List (String × AnnotationValue) :=
  [("name", .str "fly"), ("aliases", .array [.str "soar", .str "glide"]), ("desc", .str "Flies.")]

theorem Snapshot.commanding_shuffles {fields fields' : List (String × AnnotationValue)}
    (shuffles : Annotation.Shuffles ⟨.command, fields⟩ ⟨.command, fields'⟩) :
    (commanding fields).Shuffles (commanding fields') :=
  .cons ⟨rfl, rfl, rfl, rfl, .cons (.nested .nil (.refl _) nofun) (.cons shuffles .nil)⟩ .nil

theorem assemble_shuffled_flying :
    (Snapshot.commanding Command.flying).Shuffles (.commanding Command.flying.reverse) ∧
      Command.flying ≠ Command.flying.reverse ∧
      assembleReporting (Snapshot.commanding Command.flying).scanner "v0.0" [] =
        assembleReporting (Snapshot.commanding Command.flying.reverse).scanner "v0.0" [] ∧
      (assemble (Snapshot.commanding Command.flying).scanner "v0.0").isOk := by
  have wf : (AnnotationValue.nested .command Command.flying).WellFormed := by
    simp [Command.flying, AnnotationValue.WellFormed, AnnotationValue.WellFormedItems,
      AnnotationValue.WellFormedFields]
  have perm : Command.flying.Perm Command.flying.reverse := (List.reverse_perm _).symm
  have shuffles : (Snapshot.commanding Command.flying).Shuffles (.commanding Command.flying.reverse) :=
    Snapshot.commanding_shuffles (AnnotationValue.shuffles_of_perm wf perm)
  have succeeds : (assemble (Snapshot.commanding Command.flying).scanner "v0.0").isOk := by decide
  refine ⟨shuffles, by decide, (assemble_shuffled shuffles "v0.0").2.1 (fun e v failed => ?_) [],
    succeeds⟩
  rw [failed] at succeeds
  cases succeeds

/-- Two fields of an annotation. -/
def AnnotationValue.pair : List (String × AnnotationValue) := [("a", .bool true), ("b", .bool false)]

/-- A snapshot as a text, written in arrays, with an annotation that has these fields. -/
def Snapshot.textWith (fields : String) : String :=
  "[[[\"A\",\"class\",\x7b\"package\":\"\"\x7d,[],[[\"Plugin\",\x7b" ++ fields ++ "\x7d]]]]]"

/-- A message quotes the fields of an annotation that cannot be the name of a command in the order in
which they are kept, and of the fields in a text that cannot be read the first one decides what is
said. -/
theorem assemble_reveals_order :
    (Snapshot.commanding [("name", .nested .author AnnotationValue.pair)]).Shuffles
        (.commanding [("name", .nested .author AnnotationValue.pair.reverse)]) ∧
      (∃ e e', assemble
          (Snapshot.commanding [("name", .nested .author AnnotationValue.pair)]).scanner "v0.0" =
            .error e ∧
        assemble (Snapshot.commanding
          [("name", .nested .author AnnotationValue.pair.reverse)]).scanner "v0.0" = .error e' ∧
        e.message ≠ e'.message) ∧
      assembleText (Snapshot.textWith "\"a\":null,\"b\":1e999") "v0.0" ≠
        assembleText (Snapshot.textWith "\"b\":1e999,\"a\":null") "v0.0" := by
  have wf : (AnnotationValue.nested .author AnnotationValue.pair).WellFormed := by
    simp [AnnotationValue.pair, AnnotationValue.WellFormed, AnnotationValue.WellFormedFields]
  have perm : AnnotationValue.pair.Perm AnnotationValue.pair.reverse := (List.reverse_perm _).symm
  have values := AnnotationValue.shuffles_of_perm wf perm
  refine ⟨Snapshot.commanding_shuffles (AnnotationValue.shuffles_under "name" values),
    ⟨_, _, rfl, rfl, ?_⟩, ?_⟩
  · decide
  · decide +kernel

end PluginDescriptor
