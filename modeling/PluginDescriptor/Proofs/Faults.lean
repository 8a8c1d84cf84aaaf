import PluginDescriptor.Build
import PluginDescriptor.Proofs.Relevance

namespace PluginDescriptor

section FailsAs

universe v

variable {P Q : Fault → Prop} {α β : Type v}

/-- If the reading fails, `P` holds of the fault. -/
def FailsAs (P : Fault → Prop) (x : Except Fault α) : Prop := ∀ e, x = .error e → P e

@[simp] theorem failsAs_ok (a : α) : FailsAs P (.ok a) := nofun

@[simp] theorem failsAs_pure (a : α) : FailsAs P (pure a) := nofun

@[simp] theorem failsAs_error {e : Fault} : FailsAs P (.error e : Except Fault α) ↔ P e :=
  ⟨fun fails => fails e rfl, fun holds _ same => Except.error.inj same ▸ holds⟩

theorem FailsAs.mono {x : Except Fault α} (fails : FailsAs P x) (weaker : ∀ e, P e → Q e) :
    FailsAs Q x := fun e failed => weaker e (fails e failed)

theorem FailsAs.bind {x : Except Fault α} {f : α → Except Fault β} (first : FailsAs P x)
    (rest : ∀ a, x = .ok a → FailsAs P (f a)) : FailsAs P (x >>= f) := by
  cases x with
  | error e => exact failsAs_error.2 (failsAs_error.1 first)
  | ok a => exact rest a rfl

theorem FailsAs.map {x : Except Fault α} {f : α → β} (fails : FailsAs P x) :
    FailsAs P (x.map f) := by
  cases x with
  | error e => exact failsAs_error.2 (failsAs_error.1 fails)
  | ok a => exact failsAs_ok _

theorem FailsAs.mapM {f : α → Except Fault β} {l : List α} (each : ∀ a ∈ l, FailsAs P (f a)) :
    FailsAs P (l.mapM f) := by
  induction l with
  | nil => exact failsAs_pure _
  | cons a r ih =>
    rw [List.forall_mem_cons] at each
    rw [List.mapM_cons]
    refine each.1.bind fun b _ => (ih each.2).bind fun rest _ => failsAs_pure _

theorem FailsAs.foldlM {f : β → α → Except Fault β} {l : List α}
    (each : ∀ a ∈ l, ∀ b, FailsAs P (f b a)) (start : β) : FailsAs P (l.foldlM f start) := by
  induction l generalizing start with
  | nil => exact failsAs_pure _
  | cons a r ih =>
    rw [List.forall_mem_cons] at each
    rw [List.foldlM_cons]
    exact (each.1 start).bind fun b _ => ih each.2 b

end FailsAs

/-- A field is missing or has a value that it cannot have. -/
inductive Fault.OfField : Fault → Prop
  | missing (marker : Marker) (field : String) : OfField (.missingField marker field)
  | invalid (marker : Marker) (field shown : String) : OfField (.invalidValue marker field shown)

open Fault (OfField)

namespace Annotation

variable (a : Annotation) (name : String)

theorem text?_fails : FailsAs OfField (a.text? name) := by
  unfold text?
  split
  · exact failsAs_ok _
  · exact failsAs_ok _
  · exact failsAs_error.2 (.invalid ..)

theorem requiredText_fails : FailsAs OfField (a.requiredText name) := by
  have text := a.text?_fails name
  unfold requiredText
  split
  · next e failed => exact failsAs_error.2 (text e failed)
  · exact failsAs_error.2 (.missing ..)
  · exact failsAs_ok _

theorem flag?_fails : FailsAs OfField (a.flag? name) := by
  unfold flag?
  split
  · exact failsAs_ok _
  · exact failsAs_ok _
  · exact failsAs_error.2 (.invalid ..)

theorem texts_fails : FailsAs OfField (a.texts name) := by
  rw [texts_eq_mapM]
  refine FailsAs.mapM fun v _ => ?_
  unfold textItem
  split
  · exact failsAs_ok _
  · exact failsAs_error.2 (.invalid ..)

theorem records_fails (marker : Marker) : FailsAs OfField (a.records name marker) := by
  rw [records_eq_mapM]
  refine FailsAs.mapM fun v _ => ?_
  unfold recordItem
  split
  · split
    · exact failsAs_ok _
    · exact failsAs_error.2 (.invalid ..)
  · exact failsAs_error.2 (.invalid ..)

end Annotation

theorem Declaration.instances_fails (d : Declaration) (marker : Marker) :
    FailsAs OfField (d.instances marker) := by
  refine (FailsAs.mapM fun a _ => ?_).map
  unfold instancesIn
  split
  · exact failsAs_ok _
  · split
    · exact a.records_fails "value" marker
    · exact failsAs_ok _

theorem Scanner.instances_fails (s : Scanner) (h : Handle) (marker : Marker) :
    FailsAs OfField (s.instances h marker) := by
  unfold instances
  split
  · exact failsAs_ok _
  · exact Declaration.instances_fails _ marker

theorem Command.ofAnnotation_fails (a : Annotation) :
    FailsAs OfField (Command.ofAnnotation a) := by
  unfold ofAnnotation
  exact (a.requiredText_fails _).bind fun _ _ => (a.texts_fails _).bind fun _ _ =>
    (a.text?_fails _).bind fun _ _ => (a.text?_fails _).bind fun _ _ =>
    (a.text?_fails _).bind fun _ _ => (a.text?_fails _).bind fun _ _ => failsAs_pure _

theorem ChildPermission.ofAnnotation_fails (a : Annotation) :
    FailsAs OfField (ChildPermission.ofAnnotation a) := by
  unfold ofAnnotation
  exact (a.requiredText_fails _).bind fun _ _ => (a.flag?_fails _).bind fun _ _ => failsAs_pure _

theorem Permission.defaultOf_fails (a : Annotation) : FailsAs OfField (defaultOf a) := by
  unfold defaultOf
  refine (a.text?_fails _).bind fun text _ => ?_
  cases text with
  | none => exact failsAs_pure _
  | some text =>
    dsimp only
    split
    · exact failsAs_pure _
    · exact failsAs_error.2 (.invalid ..)

theorem Permission.ofAnnotation_fails (a : Annotation) :
    FailsAs OfField (Permission.ofAnnotation a) := by
  unfold ofAnnotation
  refine (defaultOf_fails a).bind fun _ _ => (a.records_fails _ _).bind fun children _ => ?_
  refine (FailsAs.mapM fun child _ => ChildPermission.ofAnnotation_fails child).bind fun _ _ => ?_
  exact (a.requiredText_fails _).bind fun _ _ => (a.text?_fails _).bind fun _ _ => failsAs_pure _

theorem ApiVersion.ofTarget_fails (target : String) : FailsAs OfField (ofTarget target) := by
  unfold ofTarget
  dsimp only
  split
  · exact failsAs_ok _
  · split
    · exact failsAs_ok _
    · exact failsAs_error.2 (.invalid ..)

namespace Source

variable (s : Source)

theorem scalar?_fails (marker : Marker) (name : String) :
    FailsAs OfField (s.scalar? marker name) := by
  unfold scalar?
  split
  · exact failsAs_ok _
  · split
    · exact failsAs_ok _
    · exact failsAs_ok _
  · exact failsAs_error.2 (.invalid ..)

theorem values_fails (marker : Marker) : FailsAs OfField (s.values marker) := by
  unfold values
  refine (s.scanner.instances_fails s.entry marker).bind fun l _ => ?_
  exact FailsAs.mapM fun a _ => a.requiredText_fails "value"

/-- What is said of the plugin as a whole can only fail at a field. -/
theorem metadata_fails : ∀ p ∈ s.metadata, FailsAs OfField p := by
  have text (key : String) (m : Marker) : FailsAs OfField (s.textPart key m) :=
    (s.scalar?_fails m "value").bind fun _ _ => failsAs_pure _
  have list (key : String) (m : Marker) : FailsAs OfField (s.listPart key m) := by
    refine (s.values_fails m).bind fun l _ => ?_
    cases l <;> exact failsAs_pure _
  have load : FailsAs OfField s.loadPart := by
    refine (s.scalar?_fails .loadOrder "value").bind fun value _ => ?_
    cases value with
    | none => exact failsAs_pure _
    | some t =>
      dsimp only
      split
      · exact failsAs_pure _
      · exact failsAs_error.2 (.invalid ..)
  have author : FailsAs OfField s.authorPart := by
    refine (s.values_fails .author).bind fun l _ => ?_
    rcases l with _ | ⟨a, _ | ⟨b, r⟩⟩ <;> exact failsAs_pure _
  have scalar (name : String) (f : Option String → String × Value) :
      FailsAs OfField (s.scalar? .plugin name >>= fun t => pure (some (f t))) :=
    (s.scalar?_fails .plugin name).bind fun _ _ => failsAs_pure _
  simp only [metadata, List.forall_mem_cons, List.not_mem_nil, false_implies, implies_true,
    and_true, failsAs_ok, true_and, text, list, load, author]
  exact ⟨scalar "name" _, scalar "version" _⟩

theorem apiVersionPart_fails : FailsAs OfField s.apiVersionPart := by
  unfold apiVersionPart
  refine (s.scalar?_fails .apiVersion "value").bind fun target _ => ?_
  cases target with
  | none => exact failsAs_pure _
  | some t => exact (ApiVersion.ofTarget_fails t).bind fun _ _ => failsAs_pure _

end Source

/-- The faults with which an assembly can end, each with what it goes back to. -/
inductive Scanner.Causes (s : Scanner) : Fault → Prop
  | several : 2 ≤ (s.scan .plugin).length →
      Causes s (.multipleEntryPoints (s.scan .plugin).length)
  | unknownEntry {h} : s.scan .plugin = [h] → s.declaration h = none →
      Causes s (.unknownDeclaration h)
  | unfit {h d v} : s.scan .plugin = [h] → s.declaration h = some d →
      EntryPoint.violation? d = some v → Causes s (.invalidEntryPoint d.qualifiedName v)
  | field {e} : e.OfField → Causes s e
  | unknownHolder {r h} : r ∈ Registry.both → h ∈ s.scan r.container ++ s.scan r.single →
      s.declaration h = none → Causes s (.unknownDeclaration h)
  | notAType {r h d} : r ∈ Registry.both → h ∈ s.scan r.container ++ s.scan r.single →
      s.declaration h = some d → d.kind.isType = false → Causes s (r.notAType d.qualifiedName)

section Causes

variable {s : Scanner}

theorem Registry.item_fails {r : Registry} (member : r ∈ both) (a : Annotation) :
    FailsAs OfField (r.item a) := by
  simp only [both, List.mem_cons, List.not_mem_nil, or_false] at member
  rcases member with rfl | rfl
  · exact (Command.ofAnnotation_fails a).bind fun _ _ => failsAs_pure _
  · exact (Permission.ofAnnotation_fails a).bind fun _ _ => failsAs_pure _

theorem Registry.merge_fails {r : Registry} (member : r ∈ both) (entry : Handle) :
    FailsAs s.Causes (r.merge s entry) := by
  have checked : FailsAs s.Causes (r.checkedHolders s) := by
    refine FailsAs.mapM fun h inside => ?_
    rw [mem_ascending] at inside
    split
    · next unknown => exact failsAs_error.2 (.unknownHolder member inside unknown)
    · next d known =>
      by_cases isType : d.kind.isType = true
      · rw [if_pos isType]
        exact failsAs_ok _
      · rw [if_neg isType]
        exact failsAs_error.2 (.notAType member inside known (by simpa using isType))
  have items (h : Handle) : FailsAs s.Causes (r.itemsOf s h) := by
    have read : FailsAs OfField (r.itemsOf s h) :=
      (s.instances_fails h r.single).bind fun l _ =>
        (FailsAs.mapM fun a _ => item_fails member a).bind fun _ _ => failsAs_pure _
    exact read.mono fun e => .field
  refine checked.bind fun holders _ => FailsAs.foldlM (fun h _ merged => ?_) ∅
  exact (items h).bind fun _ _ => failsAs_pure _

theorem EntryPoint.choose_fails : FailsAs s.Causes (choose s (s.scan .plugin)) := by
  match scanned : s.scan .plugin with
  | [] => exact failsAs_ok _
  | [h] =>
    rw [choose]
    split
    · next unknown => exact failsAs_error.2 (.unknownEntry scanned unknown)
    · next d known =>
      split
      · next v violated => exact failsAs_error.2 (.unfit scanned known violated)
      · exact failsAs_ok _
  | h :: g :: rest =>
    have several : 2 ≤ (s.scan .plugin).length := by simp [scanned]
    have failed : choose s (h :: g :: rest) =
        .error (.multipleEntryPoints (s.scan .plugin).length) := by
      rw [scanned]
      rfl
    rw [failed]
    exact failsAs_error.2 (.several several)

theorem Document.error_mem_of_fill {d filled : Document} {parts : List Part} {e : Fault}
    (failed : d.fill parts = (filled, some e)) : .error e ∈ parts := by
  induction parts generalizing d with
  | nil => simp [fill] at failed
  | cons p rest ih =>
    cases p with
    | error e' =>
      simp only [fill, Prod.mk.injEq, Option.some.injEq] at failed
      rw [failed.2]
      exact List.mem_cons_self ..
    | ok given =>
      cases given with
      | none => exact List.mem_cons_of_mem _ (ih failed)
      | some entry => exact List.mem_cons_of_mem _ (ih failed)

/-- Every fault of an assembly goes back to a scan or to a field. -/
theorem assemble_fails (s : Scanner) (defaultVersion : String) :
    FailsAs s.Causes (assemble s defaultVersion) := by
  unfold assemble
  split
  · next e failed => exact failsAs_error.2 (EntryPoint.choose_fails e failed)
  · exact failsAs_ok _
  · next h chosen =>
    split
    · next unknown =>
      obtain ⟨scanned, d, known, _⟩ := EntryPoint.choose_eq_some.1 chosen
      rw [unknown] at known
      cases known
    · next d known =>
      split
      · exact failsAs_ok _
      · next e failed =>
        have part := Document.error_mem_of_fill failed
        have fields : ∀ p ∈ Source.metadata ⟨s, h, d, defaultVersion⟩, FailsAs s.Causes p :=
          fun p inside => (Source.metadata_fails _ p inside).mono fun e => .field
        have version : FailsAs s.Causes (Source.apiVersionPart ⟨s, h, d, defaultVersion⟩) :=
          (Source.apiVersionPart_fails _).mono fun e => .field
        have merged (r : Registry) (member : r ∈ Registry.both) (key : String) :
            FailsAs s.Causes (r.part key s h) :=
          (Registry.merge_fails member h).bind fun _ _ => failsAs_pure _
        have each : ∀ p ∈ Source.parts ⟨s, h, d, defaultVersion⟩, FailsAs s.Causes p := by
          simp only [Source.parts, List.forall_mem_append, List.forall_mem_cons, List.not_mem_nil,
            false_implies, implies_true, and_true]
          exact ⟨fields, merged _ (by simp [Registry.both]) _, merged _ (by simp [Registry.both]) _,
            version⟩
        exact failsAs_error.2 (failsAs_error.1 (each _ part))

end Causes

end PluginDescriptor
