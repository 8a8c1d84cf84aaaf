import PluginDescriptor.Proofs.Resemblance

namespace PluginDescriptor

namespace AnnotationValue

mutual

/-- The second value is the first with lone values put into arrays of one, where several values may
stand. -/
inductive Encloses : AnnotationValue → AnnotationValue → Prop
  | bool (b : Bool) : Encloses (.bool b) (.bool b)
  | str (s : String) : Encloses (.str s) (.str s)
  | array {items items' : List AnnotationValue} (each : List.Forall₂ Encloses items items') :
      Encloses (.array items) (.array items')
  | nested {m : Marker} {fields fields' : List (String × AnnotationValue)}
      (each : FieldsEnclose m fields fields') : Encloses (.nested m fields) (.nested m fields')

/-- The fields of an annotation before and after. A value is changed inside, or put into an array if the
field may hold several values and this is not yet an array. -/
inductive FieldsEnclose : Marker → List (String × AnnotationValue) →
    List (String × AnnotationValue) → Prop
  | nil (m : Marker) : FieldsEnclose m [] []
  | inside {m : Marker} {name : String} {v v' : AnnotationValue}
      {rest rest' : List (String × AnnotationValue)} (value : Encloses v v')
      (others : FieldsEnclose m rest rest') :
      FieldsEnclose m ((name, v) :: rest) ((name, v') :: rest')
  | alone {m : Marker} {name : String} {v v' : AnnotationValue}
      {rest rest' : List (String × AnnotationValue)} (several : m.TakesSeveral name)
      (lone : ∀ items, v ≠ .array items) (value : Encloses v v')
      (others : FieldsEnclose m rest rest') :
      FieldsEnclose m ((name, v) :: rest) ((name, .array [v']) :: rest')

end

mutual

theorem encloses_refl : (v : AnnotationValue) → v.Encloses v
  | .bool b => .bool b
  | .str s => .str s
  | .array items => .array (items_enclose items)
  | .nested m fields => .nested (fields_enclose m fields)

theorem items_enclose : (items : List AnnotationValue) → List.Forall₂ Encloses items items
  | [] => .nil
  | v :: r => .cons (encloses_refl v) (items_enclose r)

theorem fields_enclose (m : Marker) :
    (fields : List (String × AnnotationValue)) → FieldsEnclose m fields fields
  | [] => .nil m
  | (_, v) :: r => .inside (encloses_refl v) (fields_enclose m r)

end

/-- Changes inside put nothing into a row of items and leave nothing out. -/
theorem Encloses.items {v v' : AnnotationValue} (encloses : v.Encloses v') :
    List.Forall₂ Encloses v.items v'.items := by
  cases encloses with
  | array each => exact each
  | bool b => exact .cons (.bool b) .nil
  | str s => exact .cons (.str s) .nil
  | nested each => exact .cons (.nested each) .nil

theorem items_of_lone {v : AnnotationValue} (lone : ∀ items, v ≠ .array items) : v.items = [v] := by
  cases v with
  | array items => exact (lone items rfl).elim
  | bool | str | nested => rfl

/-- What is found under a name before and after has the same number of items, and is changed only inside
where there can be only one. -/
theorem FieldsEnclose.find? {m : Marker} {fields fields' : List (String × AnnotationValue)}
    (each : FieldsEnclose m fields fields') (name : String) :
    Option.Rel (fun v v' => List.Forall₂ Encloses v.items v'.items ∧
        (¬ m.TakesSeveral name → v.Encloses v'))
      (Entries.find? name fields) (Entries.find? name fields') := by
  induction fields generalizing fields' with
  | nil =>
    cases each
    exact .none
  | cons e r ih =>
    cases each with
    | inside value others =>
      rw [Entries.find?, Entries.find?]
      split
      · exact .some ⟨value.items, fun _ => value⟩
      · exact ih others
    | @alone _ _ v v' _ _ several lone value others =>
      have items : List.Forall₂ Encloses v.items [v'] := by
        rw [items_of_lone lone]
        exact .cons value .nil
      rw [Entries.find?, Entries.find?]
      split
      · next same =>
        subst same
        exact .some ⟨items, fun single => (single several).elim⟩
      · exact ih others

end AnnotationValue

open AnnotationValue

namespace Annotation

/-- Annotations of which the second has lone values put into arrays. -/
def Encloses (a a' : Annotation) : Prop := a.toValue.Encloses a'.toValue

theorem Encloses.resembles {a a' : Annotation} (encloses : a.Encloses a') :
    a.Resembles AnnotationValue.Encloses a' := by
  obtain ⟨m, fields⟩ := a
  obtain ⟨m', fields'⟩ := a'
  cases encloses with
  | nested each =>
    refine ⟨rfl, fun name => ?_, fun name single => ?_⟩
    · unfold fieldItems field?
      rcases optionRel_iff.1 (each.find? name) with
        ⟨unset, unset'⟩ | ⟨v, v', set, set', items, _⟩
      · rw [unset, unset']
        exact .nil
      · rw [set, set']
        exact items
    · rw [optionRel_iff]
      refine (optionRel_iff.1 (each.find? name)).imp_right ?_
      rintro ⟨v, v', set, set', _, inside⟩
      exact ⟨v, v', set, set', inside single⟩

end Annotation

theorem AnnotationValue.isSemblance_encloses : IsSemblance Encloses := by
  intro v v' encloses
  have whole := encloses
  cases encloses with
  | bool b => exact .bool b
  | str s => exact .str s
  | array each => exact .array _ _
  | @nested m fields fields' =>
    have annotated : Annotation.Encloses ⟨m, fields⟩ ⟨m, fields'⟩ := whole
    exact .nested annotated.resembles

/-- The same fault, or the same but for a quoted value inside of which a lone value was put into an
array. -/
inductive Fault.ShowsEnclosed : Fault → Fault → Prop
  | same (e : Fault) : ShowsEnclosed e e
  | quoted {quote : AnnotationValue → String} (style : IsQuotation quote) (m : Marker)
      (field : String) {v v' : AnnotationValue} (encloses : v.Encloses v') (changed : v ≠ v') :
      ShowsEnclosed (.invalidValue m field (quote v)) (.invalidValue m field (quote v'))

theorem Fault.Echoes.showsEnclosed {e e' : Fault}
    (echoes : e.Echoes AnnotationValue.Encloses e') : e.ShowsEnclosed e' := by
  cases echoes with
  | same => exact .same _
  | @quoted _ style m field v v' encloses =>
    by_cases same : v = v'
    · subst same
      exact .same _
    · exact .quoted style m field encloses same

/-- Snapshots of which the second has lone values put into arrays. -/
def Snapshot.Encloses (s s' : Snapshot) : Prop :=
  List.Forall₂ (Declaration.Matches Annotation.Encloses) s.declarations s'.declarations

/-- A lone value and an array of one are interchangeable wherever several values may stand. Both programs
have no entry point, or both have the same descriptor, or both fail: with one fault, unless it quotes a
value inside of which they differ. -/
theorem assemble_encloses {s s' : Snapshot} (encloses : s.Encloses s') (defaultVersion : String) :
    (assemble s.scanner defaultVersion = .ok none ∧ assemble s'.scanner defaultVersion = .ok none) ∨
    (∃ doc, assemble s.scanner defaultVersion = .ok (some doc) ∧
      assemble s'.scanner defaultVersion = .ok (some doc)) ∨
    ∃ e e', assemble s.scanner defaultVersion = .error e ∧
      assemble s'.scanner defaultVersion = .error e' ∧ e.ShowsEnclosed e' := by
  have resembles : s.scanner.Resembles AnnotationValue.Encloses s'.scanner :=
    Snapshot.scanner_resembles <| encloses.imp fun _ _ declared =>
      declared.mono fun _ _ annotated => annotated.resembles
  have inStep := assemble_inStep isSemblance_encloses resembles defaultVersion
  generalize assemble s.scanner defaultVersion = x, assemble s'.scanner defaultVersion = x'
    at inStep ⊢
  cases inStep with
  | error echoes => exact Or.inr (Or.inr ⟨_, _, rfl, rfl, echoes.showsEnclosed⟩)
  | @ok result _ same =>
    subst same
    cases result with
    | none => exact Or.inl ⟨rfl, rfl⟩
    | some doc => exact Or.inr (Or.inl ⟨doc, rfl, rfl⟩)

/-- A plugin with one command and one permission, in containers. `written` says how the values look that
could be several. -/
def Snapshot.gliding (aliases : AnnotationValue) (written : AnnotationValue → AnnotationValue) :
    Snapshot where
  declarations :=
    [{ qualifiedName := "demo.Main", kind := .classType, enclosing := .package "demo",
       annotations :=
        [⟨.plugin, []⟩,
          ⟨.commands, [("value", written (.nested .command
            [("name", .str "glide"), ("aliases", written aliases)]))]⟩,
          ⟨.permissions, [("value", written (.nested .permission
            [("name", .str "demo.glide"), ("children", written (.nested .childPermission
              [("name", .str "demo.land")]))]))]⟩] }]

theorem Snapshot.gliding_encloses (aliases : AnnotationValue)
    (lone : ∀ items, aliases ≠ .array items) :
    (gliding aliases id).Encloses (gliding aliases (.array [·])) := by
  have inCommands : Marker.commands.TakesSeveral "value" := by decide
  have inPermissions : Marker.permissions.TakesSeveral "value" := by decide
  have command : (AnnotationValue.nested .command [("name", .str "glide"), ("aliases", aliases)]).Encloses
      (.nested .command [("name", .str "glide"), ("aliases", .array [aliases])]) :=
    .nested (.inside (encloses_refl _) (.alone (by decide) lone (encloses_refl _) (.nil _)))
  have permission : (AnnotationValue.nested .permission [("name", .str "demo.glide"),
        ("children", .nested .childPermission [("name", .str "demo.land")])]).Encloses
      (.nested .permission [("name", .str "demo.glide"),
        ("children", .array [.nested .childPermission [("name", .str "demo.land")]])]) :=
    .nested (.inside (encloses_refl _) (.alone (by decide) nofun (encloses_refl _) (.nil _)))
  refine .cons ⟨rfl, rfl, rfl, rfl, .cons (encloses_refl _) (.cons ?_ (.cons ?_ .nil))⟩ .nil
  · exact .nested (.alone inCommands nofun command (.nil _))
  · exact .nested (.alone inPermissions nofun permission (.nil _))

/-- A plugin that has a command for its name. -/
def Snapshot.misnamed (aliases : AnnotationValue) : Snapshot where
  declarations :=
    [{ qualifiedName := "demo.Main", kind := .classType, enclosing := .package "demo",
       annotations := [⟨.plugin, [("name", .nested .command [("aliases", aliases)])]⟩] }]

theorem assemble_encloses_gliding :
    ((Snapshot.gliding (.str "soar") id).Encloses (.gliding (.str "soar") (.array [·])) ∧
      ∃ doc : Document, doc.keys = ["main", "name", "version", "commands", "permissions"] ∧
        assemble (Snapshot.gliding (.str "soar") id).scanner "v0.0" = .ok (some doc) ∧
        assemble (Snapshot.gliding (.str "soar") (.array [·])).scanner "v0.0" = .ok (some doc)) ∧
    ((Snapshot.gliding (.bool true) id).Encloses (.gliding (.bool true) (.array [·])) ∧
      ∃ e e', assemble (Snapshot.gliding (.bool true) id).scanner "v0.0" = .error e ∧
        assemble (Snapshot.gliding (.bool true) (.array [·])).scanner "v0.0" = .error e' ∧
        e.ShowsEnclosed e' ∧ e.message = "Invalid value for Command.aliases: true" ∧ e' = e) ∧
    ((Snapshot.misnamed (.str "soar")).Encloses (.misnamed (.array [.str "soar"])) ∧
      ∃ e e', assemble (Snapshot.misnamed (.str "soar")).scanner "v0.0" = .error e ∧
        assemble (Snapshot.misnamed (.array [.str "soar"])).scanner "v0.0" = .error e' ∧
        e.ShowsEnclosed e' ∧ e.message ≠ e'.message) := by
  have sound := Snapshot.gliding_encloses (.str "soar") nofun
  have broken := Snapshot.gliding_encloses (.bool true) nofun
  have misnamed : (Snapshot.misnamed (.str "soar")).Encloses (.misnamed (.array [.str "soar"])) :=
    .cons ⟨rfl, rfl, rfl, rfl, .cons (.nested (.inside (.nested
      (.alone (by decide) nofun (.str "soar") (.nil _))) (.nil _))) .nil⟩ .nil
  refine ⟨⟨sound, ?_⟩, ⟨broken, ?_⟩, misnamed, ?_⟩
  · obtain ⟨skipped, _⟩ | ⟨doc, first, second⟩ | ⟨_, _, failed, _⟩ := assemble_encloses sound "v0.0"
    · cases skipped
    · refine ⟨doc, ?_, first, second⟩
      cases first
      rfl
    · cases failed
  · obtain ⟨skipped, _⟩ | ⟨_, done, _⟩ | ⟨e, e', first, second, shows⟩ :=
      assemble_encloses broken "v0.0"
    · cases skipped
    · cases done
    · refine ⟨e, e', first, second, shows, ?_⟩
      cases first
      cases second
      exact ⟨rfl, rfl⟩
  · obtain ⟨skipped, _⟩ | ⟨_, done, _⟩ | ⟨e, e', first, second, shows⟩ :=
      assemble_encloses misnamed "v0.0"
    · cases skipped
    · cases done
    · refine ⟨e, e', first, second, shows, ?_⟩
      cases first
      cases second
      decide +kernel

end PluginDescriptor
