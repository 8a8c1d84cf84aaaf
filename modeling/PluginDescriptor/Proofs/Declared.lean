import PluginDescriptor.Proofs.Records
import PluginDescriptor.Registry

namespace PluginDescriptor

open AnnotationValue Annotation

/-- The fields of the annotation are those of a command. -/
structure Command.IsDeclaredBy (a : Annotation) : Prop where
  name : a.Requires "name" IsText
  aliases : a.Allows "aliases" IsTexts
  description : a.Allows "desc" IsText
  permission : a.Allows "permission" IsText
  permissionMessage : a.Allows "permissionMessage" IsText
  usage : a.Allows "usage" IsText

/-- The fields of the annotation are those of a child of a permission. -/
structure ChildPermission.IsDeclaredBy (a : Annotation) : Prop where
  name : a.Requires "name" IsText
  inherit : a.Allows "inherit" IsFlag

/-- The value is a text that names a default of a permission. -/
def PermissionDefault.IsNamedBy (v : AnnotationValue) : Prop :=
  ∃ t d, v = .str t ∧ PermissionDefault.ofText? t = some d

/-- The fields of the annotation are those of a permission. -/
structure Permission.IsDeclaredBy (a : Annotation) : Prop where
  name : a.Requires "name" IsText
  description : a.Allows "desc" IsText
  default : a.Allows "defaultValue" PermissionDefault.IsNamedBy
  children : a.Allows "children" (IsRecords .childPermission ChildPermission.IsDeclaredBy)

theorem Command.succeeds_ofAnnotation {a : Annotation} :
    Succeeds (Command.ofAnnotation a) ↔ Command.IsDeclaredBy a := by
  have steps : Succeeds (Command.ofAnnotation a) ↔ Succeeds (a.requiredText "name") ∧
      Succeeds (a.texts "aliases") ∧ Succeeds (a.text? "desc") ∧ Succeeds (a.text? "permission") ∧
      Succeeds (a.text? "permissionMessage") ∧ Succeeds (a.text? "usage") := by
    refine succeeds_bind_const fun _ => succeeds_bind_const fun _ => succeeds_bind_const fun _ =>
      succeeds_bind_const fun _ => succeeds_bind_const fun _ => ?_
    exact succeeds_bind_of_total fun _ => succeeds_pure _
  rw [steps]
  simp only [succeeds_requiredText, succeeds_texts, succeeds_text?]
  exact ⟨fun ⟨name, aliases, description, permission, permissionMessage, usage⟩ =>
      { name, aliases, description, permission, permissionMessage, usage },
    fun d => ⟨d.name, d.aliases, d.description, d.permission, d.permissionMessage, d.usage⟩⟩

theorem ChildPermission.succeeds_ofAnnotation {a : Annotation} :
    Succeeds (ChildPermission.ofAnnotation a) ↔ ChildPermission.IsDeclaredBy a := by
  have steps : Succeeds (ChildPermission.ofAnnotation a) ↔
      Succeeds (a.requiredText "name") ∧ Succeeds (a.flag? "inherit") :=
    succeeds_bind_const fun _ => succeeds_bind_of_total fun _ => succeeds_pure _
  rw [steps, succeeds_requiredText, succeeds_flag?]
  exact ⟨fun ⟨name, inherit⟩ => { name, inherit }, fun d => ⟨d.name, d.inherit⟩⟩

theorem Permission.succeeds_defaultOf {a : Annotation} :
    Succeeds (Permission.defaultOf a) ↔ a.Allows "defaultValue" PermissionDefault.IsNamedBy := by
  unfold Permission.defaultOf Annotation.text? Annotation.Allows PermissionDefault.IsNamedBy
  cases a.field? "defaultValue" with
  | none => simp [succeeds_bind]
  | some v =>
    cases v with
    | str t =>
      simp only [succeeds_bind, Except.ok.injEq, exists_eq_left', Option.some.injEq, forall_eq',
        str.injEq, exists_and_left]
      cases PermissionDefault.ofText? t with
      | none => simp [throw, throwThe, MonadExceptOf.throw]
      | some d => simp
    | bool | array | nested => simp [succeeds_bind]

theorem Permission.succeeds_ofAnnotation {a : Annotation} :
    Succeeds (Permission.ofAnnotation a) ↔ Permission.IsDeclaredBy a := by
  have steps : Succeeds (Permission.ofAnnotation a) ↔ Succeeds (Permission.defaultOf a) ∧
      Succeeds (a.records "children" .childPermission >>= fun l =>
        l.mapM ChildPermission.ofAnnotation) ∧
      Succeeds (a.requiredText "name") ∧ Succeeds (a.text? "desc") := by
    refine succeeds_bind_const fun _ => ?_
    rw [← bind_assoc]
    refine succeeds_bind_const fun _ => succeeds_bind_const fun _ => ?_
    exact succeeds_bind_of_total fun _ => succeeds_pure _
  rw [steps]
  simp only [Permission.succeeds_defaultOf, succeeds_records_mapM,
    ChildPermission.succeeds_ofAnnotation, succeeds_requiredText, succeeds_text?]
  exact ⟨fun ⟨default, children, name, description⟩ => { name, description, default, children },
    fun d => ⟨d.default, d.children, d.name, d.description⟩⟩

end PluginDescriptor
