import PluginDescriptor.Proofs.Blank

namespace PluginDescriptor

namespace Document

/-- The text under a key; it is empty if there is none. -/
def textAt (d : Document) (key : String) : String := ((d.get? key).bind Value.asText?).getD ""

theorem Writes.texts_eq {d : Document} {texts : List (String × String)} (written : d.Writes texts) :
    texts = (texts.map Prod.fst).map fun key => (key, d.textAt key) := by
  have each : ∀ row ∈ texts, (row.1, d.textAt row.1) = row := by
    intro row member
    refine Prod.ext rfl ?_
    rw [textAt, written row member]
    split
    · next empty => exact empty.symm
    · rfl
  rw [List.map_map]
  exact ((List.map_congr_left each).trans (List.map_id texts)).symm

end Document

namespace Command

/-- The aliases that an entry shows. -/
def shownAliases (d : Document) : List String :=
  match d.get? "aliases" with
  | some (.str a) => [a]
  | some (.list several) => several
  | _ => []

theorem get?_aliases (c : Command) : c.entry.get? "aliases" = aliasesValue c.aliases := by
  unfold entry
  cases aliasesValue c.aliases with
  | none => simp [Document.get?_putText, Document.get?_empty]
  | some v => simp [Document.get?_putText, OrderedMap.get?_insert]

theorem shownAliases_entry (c : Command) : shownAliases c.entry = c.aliases := by
  rw [shownAliases, get?_aliases]
  rcases c.aliases with _ | ⟨a, _ | ⟨b, r⟩⟩ <;> rfl

theorem entry_eq_entry_iff {c d : Command} :
    c.entry = d.entry ↔ c.aliases = d.aliases ∧ c.texts = d.texts := by
  constructor
  · intro same
    refine ⟨?_, ?_⟩
    · rw [← shownAliases_entry, same, shownAliases_entry]
    · rw [c.entry_writes.texts_eq, d.entry_writes.texts_eq, same]
      rfl
  · rintro ⟨aliases, texts⟩
    simp only [Command.texts, List.cons.injEq, Prod.mk.injEq, true_and, and_true] at texts
    obtain ⟨description, permission, message, usage⟩ := texts
    unfold entry
    rw [aliases, description, permission, message, usage]

end Command

/-- One child for each name: the last that has it, in the place of the first. -/
def ChildPermission.collapse (children : List ChildPermission) : List ChildPermission :=
  (children.map name).eraseDups.filterMap fun n => (children.filter (·.name = n)).getLast?

namespace Permission

/-- The children as a map are the collapsed ones. -/
theorem entries_childMap (children : List ChildPermission) :
    (childMap children).entries =
      (ChildPermission.collapse children).map fun c => (c.name, .bool c.inherit) := by
  rw [OrderedMap.entries_eq_filterMap, childMap, OrderedMap.keys_ofList, List.map_map,
    ChildPermission.collapse, List.map_filterMap]
  refine List.filterMap_congr fun n _ => ?_
  rw [OrderedMap.get?_ofList, List.filter_map, List.getLast?_map, Option.map_map, Option.map_map]
  refine Option.map_congr fun c last => ?_
  have named := of_decide_eq_true (List.mem_filter.1 (List.mem_of_getLast? last)).2
  exact congrArg (·, Value.bool c.inherit) named.symm

/-- What an entry says of the children depends on the collapsed ones alone. -/
theorem childrenGiven_eq (p : Permission) :
    p.childrenGiven = if ChildPermission.collapse p.children = [] then none
      else some ("children", .map ((ChildPermission.collapse p.children).map
        fun c => (c.name, .bool c.inherit))) := by
  have shown := entries_childMap p.children
  rw [childrenGiven, Value.ofMap, shown]
  by_cases childless : p.children = []
  · rw [childless]
    rfl
  · have some_ : ChildPermission.collapse p.children ≠ [] := by
      intro none
      rw [none] at shown
      exact childMap_keys childless (congrArg (List.map Prod.fst) shown)
    rw [if_neg some_, if_neg (by simpa using childless)]

/-- The default that an entry shows. -/
def shownDefault (d : Document) : PermissionDefault :=
  (((d.get? "default").bind Value.asText?).bind PermissionDefault.ofText?).getD .operators

/-- The children that an entry shows. -/
def shownChildren (d : Document) : List ChildPermission :=
  (((d.get? "children").bind Value.asEntries?).getD []).filterMap fun e =>
    e.2.asFlag?.map (ChildPermission.mk e.1)

theorem shownDefault_entry (p : Permission) : shownDefault p.entry = p.default := by
  have given : p.entry.get? "default" = p.defaultGiven.map Prod.snd := by
    unfold entry defaultGiven
    split <;> split <;> simp [Document.get?_putText, OrderedMap.get?_insert, Document.get?_empty]
  rw [shownDefault, given, defaultGiven]
  cases p.default <;> decide

theorem shownChildren_entry (p : Permission) :
    shownChildren p.entry = ChildPermission.collapse p.children := by
  have given : p.entry.get? "children" = p.childrenGiven.map Prod.snd := by
    unfold entry childrenGiven
    split <;> split <;> simp [Document.get?_putText, OrderedMap.get?_insert, Document.get?_empty]
  rw [shownChildren, given, childrenGiven_eq]
  split
  · next none =>
    rw [none]
    rfl
  · exact List.filterMap_map.trans List.filterMap_some

theorem entry_eq_entry_iff {p q : Permission} :
    p.entry = q.entry ↔ p.texts = q.texts ∧ p.default = q.default ∧
      ChildPermission.collapse p.children = ChildPermission.collapse q.children := by
  constructor
  · intro same
    refine ⟨?_, ?_, ?_⟩
    · rw [p.entry_writes.texts_eq, q.entry_writes.texts_eq, same]
      rfl
    · rw [← shownDefault_entry, same, shownDefault_entry]
    · rw [← shownChildren_entry, same, shownChildren_entry]
  · rintro ⟨texts, default, children⟩
    simp only [Permission.texts, List.cons.injEq, Prod.mk.injEq, true_and, and_true] at texts
    rw [entry_eq, entry_eq, childrenGiven_eq, childrenGiven_eq, defaultGiven, defaultGiven, texts,
      default, children]

end Permission

/-- Two entries of commands are equal exactly if the commands have the same aliases and texts, and two of
permissions if the permissions have the same description, default and collapsed children. -/
theorem entries_tell_apart :
    (∀ c d : Command, c.entry = d.entry ↔ c.aliases = d.aliases ∧ c.description = d.description ∧
      c.permission = d.permission ∧ c.permissionMessage = d.permissionMessage ∧ c.usage = d.usage) ∧
    ∀ p q : Permission, p.entry = q.entry ↔ p.description = q.description ∧ p.default = q.default ∧
      ChildPermission.collapse p.children = ChildPermission.collapse q.children := by
  refine ⟨fun c d => ?_, fun p q => ?_⟩
  · rw [Command.entry_eq_entry_iff, Command.texts, Command.texts]
    simp only [List.cons.injEq, Prod.mk.injEq, true_and, and_true]
  · rw [Permission.entry_eq_entry_iff, Permission.texts, Permission.texts]
    simp only [List.cons.injEq, Prod.mk.injEq, true_and, and_true]

/-- Permissions that only differ in what an entry does not show. -/
example :
    Permission.entry
        { name := "demo.fly", children := [⟨"land", true⟩, ⟨"soar", true⟩, ⟨"land", false⟩] } =
      Permission.entry
        { name := "demo.glide", children := [⟨"land", false⟩, ⟨"soar", true⟩] } := by
  decide

end PluginDescriptor
