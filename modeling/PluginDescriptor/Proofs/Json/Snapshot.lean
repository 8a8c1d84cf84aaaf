import PluginDescriptor.Declaration.Json
import PluginDescriptor.Proofs.Json.Tree
import PluginDescriptor.Proofs.OrderedMap

namespace PluginDescriptor

open Json Json.Reader

theorem lookup_named {α : Type} {name : α → String} {l : List α} {a : α} (mem : a ∈ l)
    (apart : ∀ b, name b = name a → b = a) :
    (l.map fun b => (name b, b)).lookup (name a) = some a := by
  induction l with
  | nil => simp at mem
  | cons b r ih =>
    rw [List.map_cons, List.lookup_cons]
    by_cases same : name a = name b
    · obtain rfl := apart b same.symm
      rw [beq_self_eq_true]
    · have later : a ∈ r := (List.mem_cons.1 mem).resolve_left (same <| congrArg name ·)
      rw [beq_eq_false_iff_ne.2 same]
      exact ih later

theorem Marker.lookup_options (m : Marker) : options.lookup m.name = some m :=
  lookup_named m.mem_all fun _ same => name_injective same

theorem Kind.lookup_options (k : Kind) : options.lookup k.name = some k :=
  lookup_named (by cases k <;> decide) (by cases k <;> intro b <;> cases b <;> decide)

theorem Modifier.lookup_options (m : Modifier) : options.lookup m.name = some m :=
  lookup_named (by cases m <;> decide) (by cases m <;> intro b <;> cases b <;> decide)

namespace AnnotationValue

mutual

/-- Each kind of value has a shape of its own in JSON, so the first that fits is the right one. -/
theorem ofJson?_toJson : (v : AnnotationValue) → v.WellFormed → ofJson? v.toJson = some v
  | .bool _, _ => rfl
  | .str _, _ => rfl
  | .array items, wf => by
    rw [toJson, ofJson?, ofItems?_itemsToJson items wf]
  | .nested m fields, wf => by
    have read : ofMap? (.object (fieldsToJson fields)) = some fields := by
      rw [ofMap?, ofFields?_fieldsToJson fields wf.2, Option.map_some,
        Entries.collapse_of_nodup wf.1]
    simp [toJson, ofJson?, ofMembers?, Marker.ofJson?, Marker.lookup_options, read]

theorem ofItems?_itemsToJson :
    (items : List AnnotationValue) → WellFormedItems items →
      ofItems? (itemsToJson items) = some items
  | [], _ => rfl
  | v :: r, wf => by
    rw [itemsToJson, ofItems?, ofJson?_toJson v wf.1, ofItems?_itemsToJson r wf.2]
    rfl

theorem ofFields?_fieldsToJson :
    (fields : List (String × AnnotationValue)) → WellFormedFields fields →
      ofFields? (fieldsToJson fields) = some fields
  | [], _ => rfl
  | (k, v) :: r, wf => by
    rw [fieldsToJson, ofFields?, ofJson?_toJson v wf.1, ofFields?_fieldsToJson r wf.2]
    rfl

end

mutual

theorem numberless_toJson : (v : AnnotationValue) → v.toJson.Numberless
  | .bool _ => trivial
  | .str _ => trivial
  | .array items => numberless_itemsToJson items
  | .nested _ fields => ⟨trivial, numberless_fieldsToJson fields, trivial⟩

theorem numberless_itemsToJson :
    (items : List AnnotationValue) → NumberlessItems (itemsToJson items)
  | [] => trivial
  | v :: r => ⟨numberless_toJson v, numberless_itemsToJson r⟩

theorem numberless_fieldsToJson :
    (fields : List (String × AnnotationValue)) → NumberlessMembers (fieldsToJson fields)
  | [] => trivial
  | (_, v) :: r => ⟨numberless_toJson v, numberless_fieldsToJson r⟩

end

theorem takes_reader {d : Nat} {v : AnnotationValue} (wf : v.WellFormed)
    (nests : v.toJson.depth ≤ d) : Takes (reader d) v.toJson.chars v := by
  refine (takes_tree (numberless_toJson v) nests).finish ?_
  rw [ofJson?_toJson v wf]

theorem wellFormedFields_iff {fields : List (String × AnnotationValue)} :
    WellFormedFields fields ↔ ∀ f ∈ fields, f.2.WellFormed := by
  induction fields with
  | nil => simp [WellFormedFields]
  | cons f r ih => obtain ⟨k, v⟩ := f; simp [WellFormedFields, ih]

theorem fieldsToJson_eq_map (fields : List (String × AnnotationValue)) :
    fieldsToJson fields = fields.map fun f => (f.1, f.2.toJson) := by
  induction fields with
  | nil => rfl
  | cons f r ih => obtain ⟨k, v⟩ := f; rw [fieldsToJson, ih, List.map_cons]

end AnnotationValue

namespace Annotation

open AnnotationValue

/-- Fields with different names are collected in their order. -/
theorem leads_fields {d : Nat} {acc fields : List (String × AnnotationValue)}
    (apart : (Entries.keys (acc ++ fields)).Nodup)
    (each : ∀ f ∈ fields, Takes (AnnotationValue.reader d) f.2.toJson.chars f.2) :
    Leads (fun acc name => .ok do return Entries.put name (← AnnotationValue.reader d) acc) acc
      ((fieldsToJson fields).map fun m => (m.1, m.2.chars)) (acc ++ fields) := by
  induction fields generalizing acc with
  | nil =>
    rw [List.append_nil]
    exact .nil acc
  | cons f r ih =>
    obtain ⟨name, v⟩ := f
    have first := each (name, v) (List.mem_cons_self ..)
    have put := Entries.put_of_nodup apart
    rw [List.append_cons] at apart ⊢
    have others := ih apart fun f mem => each f (List.mem_cons_of_mem _ mem)
    rw [fieldsToJson, List.map_cons]
    exact .cons rfl (first.finish (by rw [put])) others

theorem takes_fieldsReader {d : Nat} {fields : List (String × AnnotationValue)}
    (apart : (Entries.keys fields).Nodup) (wf : WellFormedFields fields)
    (nests : (Json.object (fieldsToJson fields)).depth ≤ d) :
    Takes (fieldsReader d) (Json.object (fieldsToJson fields)).chars fields := by
  obtain ⟨d, rfl⟩ := Nat.exists_eq_succ_of_ne_zero (Nat.ne_zero_of_lt nests)
  have shallow := membersDepth_le.1 (Nat.le_of_succ_le_succ nests)
  have each : ∀ f ∈ fields, Takes (AnnotationValue.reader d) f.2.toJson.chars f.2 := by
    intro f mem
    refine takes_reader (wellFormedFields_iff.1 wf f mem) (shallow (f.1, f.2.toJson) ?_)
    rw [fieldsToJson_eq_map]
    exact List.mem_map_of_mem mem
  rw [chars_object]
  refine takes_peek rfl ?_
  rw [if_pos rfl]
  exact takes_deeper (takes_skip (takes_members (@leads_fields d [] fields apart each)))

theorem leads_toJson {d : Nat} {a : Annotation} (wf : a.WellFormed)
    (nests : (Json.object (fieldsToJson a.fields)).depth ≤ d) :
    Leads (memberReader d) {}
      [("marker", (Json.str a.marker.name).chars),
        ("fields", (Json.object (fieldsToJson a.fields)).chars)]
      ⟨some a.marker, some a.fields⟩ := by
  have marker := takes_choice a.marker.lookup_options d
  have fields := takes_fieldsReader wf.1 wf.2 nests
  refine .cons rfl (marker.finish rfl) ?_
  exact .cons rfl (fields.finish rfl) (.nil _)

/-- An annotation comes back from its own text. -/
theorem takes_record {d : Nat} {a : Annotation} (wf : a.WellFormed) (nests : a.toJson.depth ≤ d) :
    Takes (reader d) a.toJson.chars a := by
  obtain ⟨d, rfl⟩ := Nat.exists_eq_succ_of_ne_zero (Nat.ne_zero_of_lt nests)
  have inner : (Json.object (fieldsToJson a.fields)).depth ≤ d :=
    membersDepth_le.1 (Nat.le_of_succ_le_succ nests) ("fields", _) (by simp)
  exact takes_braced (by decide) ((takes_members (leads_toJson wf inner)).finish rfl)

end Annotation

namespace Enclosing

theorem takes_onlyMember {key name : String} {make : String → Enclosing}
    (known : options.lookup key = some make) (d : Nat) :
    Takes (reader (d + 1)) (Json.object [(key, .str name)]).chars (make name) := by
  have picked : pick options key = pure make := by rw [pick, known]
  have quoted : Takes onlyKey (stringChars key) key :=
    (takes_expect rfl).bind (takes_stringRest key)
  have closed : Takes (expect '\x7d' >>= fun _ => pure (make name)) ['\x7d'] (make name) :=
    (takes_expect rfl).finish rfl
  have text : (Json.object [(key, .str name)]).chars =
      '\x7b' :: (stringChars key ++ ([':'] ++ (stringChars name ++ ['\x7d']))) := by
    simp [chars, memberTexts, commas]
  rw [text]
  refine takes_braced (by decide) (quoted.bind ?_)
  rw [picked, pure_bind]
  refine (takes_expect rfl).bind ?_
  exact (takes_string "a string" name).bind closed

theorem takes_reader (e : Enclosing) (d : Nat) : Takes (reader (d + 1)) e.toJson.chars e := by
  cases e with
  | package name => exact takes_onlyMember rfl d
  | type name => exact takes_onlyMember rfl d

end Enclosing

namespace Declaration

theorem takes_modifiers {l : List Modifier} {d : Nat}
    (nests : (Json.array (l.map (.str ·.name))).depth ≤ d + 1) :
    Takes (modifiersReader (d + 1)) (Json.array (l.map (.str ·.name))).chars l :=
  takes_array (fun _ _ => ⟨_, _, rfl, rfl, by decide⟩)
    (fun m _ _ => takes_choice m.lookup_options d) nests

theorem takes_annotations {l : List Annotation} {d : Nat} (wf : ∀ a ∈ l, a.WellFormed)
    (nests : (Json.array (l.map Annotation.toJson)).depth ≤ d + 1) :
    Takes (annotationsReader (d + 1)) (Json.array (l.map Annotation.toJson)).chars l :=
  takes_array (fun _ _ => ⟨_, _, rfl, rfl, by decide⟩)
    (fun a mem inner => Annotation.takes_record (wf a mem) inner) nests

theorem leads_toJson {d : Nat} {x : Declaration} (wf : ∀ a ∈ x.annotations, a.WellFormed)
    (modifiers : (Json.array (x.modifiers.map (.str ·.name))).depth ≤ d + 1)
    (annotations : (Json.array (x.annotations.map Annotation.toJson)).depth ≤ d + 1) :
    Leads (memberReader (d + 1)) {}
      [("qualified_name", (Json.str x.qualifiedName).chars), ("kind", (Json.str x.kind.name).chars),
        ("enclosing", x.enclosing.toJson.chars),
        ("modifiers", (Json.array (x.modifiers.map (.str ·.name))).chars),
        ("annotations", (Json.array (x.annotations.map Annotation.toJson)).chars)]
      ⟨some x.qualifiedName, some x.kind, some x.enclosing, some x.modifiers,
        some x.annotations⟩ := by
  have named := takes_string "a string" x.qualifiedName
  have kind := takes_choice x.kind.lookup_options (d + 1)
  have enclosing := x.enclosing.takes_reader d
  have modifiers := takes_modifiers modifiers
  have annotations := takes_annotations wf annotations
  refine .cons rfl (named.finish rfl) ?_
  refine .cons rfl (kind.finish rfl) ?_
  refine .cons rfl (enclosing.finish rfl) ?_
  refine .cons rfl (modifiers.finish rfl) ?_
  exact .cons rfl (annotations.finish rfl) (.nil _)

/-- A declaration comes back from its own text. -/
theorem takes_declaration {d : Nat} {x : Declaration} (wf : ∀ a ∈ x.annotations, a.WellFormed)
    (nests : x.toJson.depth ≤ d) : Takes (reader d) x.toJson.chars x := by
  obtain ⟨d, rfl⟩ := Nat.exists_eq_succ_of_ne_zero (Nat.ne_zero_of_lt nests)
  have inner := membersDepth_le.1 (Nat.le_of_succ_le_succ nests)
  have modifiers := inner ("modifiers", .array (x.modifiers.map (.str ·.name))) (by simp)
  have annotations := inner ("annotations", .array (x.annotations.map Annotation.toJson)) (by simp)
  obtain ⟨d, rfl⟩ := Nat.exists_eq_succ_of_ne_zero (Nat.ne_zero_of_lt modifiers)
  exact takes_braced (by decide)
    ((takes_members (leads_toJson wf modifiers annotations)).finish rfl)

end Declaration

namespace Snapshot

/-- No annotation has two fields of one name, at any depth. -/
def WellFormed (s : Snapshot) : Prop := ∀ d ∈ s.declarations, ∀ a ∈ d.annotations, a.WellFormed

theorem takes_reader {d : Nat} {s : Snapshot} (wf : s.WellFormed) (nests : s.toJson.depth ≤ d) :
    Takes (reader d) s.toJson.chars s := by
  obtain ⟨d, rfl⟩ := Nat.exists_eq_succ_of_ne_zero (Nat.ne_zero_of_lt nests)
  have inner : (Json.array (s.declarations.map Declaration.toJson)).depth ≤ d :=
    membersDepth_le.1 (Nat.le_of_succ_le_succ nests) _ (List.mem_cons_self ..)
  obtain ⟨d, rfl⟩ := Nat.exists_eq_succ_of_ne_zero (Nat.ne_zero_of_lt inner)
  have declarations : Takes (declarationsReader (d + 1))
      (Json.array (s.declarations.map Declaration.toJson)).chars s.declarations :=
    takes_array (fun _ _ => ⟨_, _, rfl, rfl, by decide⟩)
      (fun x mem below => Declaration.takes_declaration (wf x mem) below) inner
  have leads : Leads (memberReader (d + 1)) none
      [("declarations", (Json.array (s.declarations.map Declaration.toJson)).chars)]
      (some s.declarations) :=
    .cons rfl (declarations.map some) (.nil _)
  exact takes_braced (by decide) ((takes_members leads).finish rfl)

/-- A snapshot is read back from its text, in whichever order the fields of its annotations were
written. -/
theorem ofText_compact {s : Snapshot} (wf : s.WellFormed) (nests : s.toJson.depth ≤ 127) :
    ofText s.compact = .ok s := by
  have read := takes_reader wf nests []
  rw [List.append_nil] at read
  unfold ofText run compact Json.compact maxDepth
  rw [String.toList_ofList, read]
  rfl

/-- Values that look like annotations: arrays that begin with the name of a marker, and fields that
have the names of an annotation's parts. -/
def lookalikes : Snapshot where
  declarations := [
    { qualifiedName := "a.\"B\\\u0001é𝄞", kind := .recordType, enclosing := .type "",
      modifiers := [.final, .static],
      annotations := [
        { marker := .commands,
          fields := [
            ("value",
              .array [.nested .command [("name", .str "\n"), ("", .bool false)], .array []]),
            ("marker", .array [.str "Plugin", .nested .author []]),
            ("fields",
              .nested .plugin [("fields", .str "Plugin"), ("marker", .array [.str "Author"])])] },
        { marker := .plugin }] },
    { qualifiedName := "", kind := .package, enclosing := .package "." }]

theorem ofText_compact_lookalikes :
    lookalikes.WellFormed ∧ lookalikes.toJson.depth ≤ 127 ∧
      ofText lookalikes.compact = .ok lookalikes := by
  have wf : lookalikes.WellFormed := by
    simp [WellFormed, lookalikes, Annotation.WellFormed, Annotation.toValue,
      AnnotationValue.WellFormed, AnnotationValue.WellFormedItems, AnnotationValue.WellFormedFields]
  have nests : lookalikes.toJson.depth ≤ 127 := by decide
  exact ⟨wf, nests, ofText_compact wf nests⟩

end Snapshot
end PluginDescriptor
