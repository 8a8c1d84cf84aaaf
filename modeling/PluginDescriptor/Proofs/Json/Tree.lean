import PluginDescriptor.Proofs.Json.Reader

namespace PluginDescriptor.Json

mutual

/-- How many arrays and objects stand around the innermost part of a value. -/
def depth : Json → Nat
  | .null => 0
  | .bool _ => 0
  | .number _ => 0
  | .str _ => 0
  | .array items => itemsDepth items + 1
  | .object members => membersDepth members + 1

def itemsDepth : List Json → Nat
  | [] => 0
  | v :: r => max v.depth (itemsDepth r)

def membersDepth : List (String × Json) → Nat
  | [] => 0
  | (_, v) :: r => max v.depth (membersDepth r)

end

mutual

/-- No number occurs in the value. -/
def Numberless : Json → Prop
  | .null => True
  | .bool _ => True
  | .number _ => False
  | .str _ => True
  | .array items => NumberlessItems items
  | .object members => NumberlessMembers members

def NumberlessItems : List Json → Prop
  | [] => True
  | v :: r => v.Numberless ∧ NumberlessItems r

def NumberlessMembers : List (String × Json) → Prop
  | [] => True
  | (_, v) :: r => v.Numberless ∧ NumberlessMembers r

end

theorem itemsDepth_le {items : List Json} {d : Nat} :
    itemsDepth items ≤ d ↔ ∀ v ∈ items, v.depth ≤ d := by
  induction items with
  | nil => simp [itemsDepth]
  | cons v r ih => rw [itemsDepth, Nat.max_le, ih, List.forall_mem_cons]

theorem membersDepth_le {members : List (String × Json)} {d : Nat} :
    membersDepth members ≤ d ↔ ∀ m ∈ members, m.2.depth ≤ d := by
  induction members with
  | nil => simp [membersDepth]
  | cons m r ih =>
    obtain ⟨k, v⟩ := m
    rw [membersDepth, Nat.max_le, ih, List.forall_mem_cons]

theorem numberlessItems_iff {items : List Json} :
    NumberlessItems items ↔ ∀ v ∈ items, v.Numberless := by
  induction items with
  | nil => simp [NumberlessItems]
  | cons v r ih => simp [NumberlessItems, ih]

theorem numberlessMembers_iff {members : List (String × Json)} :
    NumberlessMembers members ↔ ∀ m ∈ members, m.2.Numberless := by
  induction members with
  | nil => simp [NumberlessMembers]
  | cons m r ih => obtain ⟨k, v⟩ := m; simp [NumberlessMembers, ih]

open Reader

theorem chars_array (items : List Json) :
    (array items).chars = '[' :: (commas (items.map chars) ++ [']']) := by
  have texts : itemTexts items = items.map chars := by
    induction items with
    | nil => rfl
    | cons v r ih => rw [itemTexts, ih, List.map_cons]
  rw [chars, texts]
  rfl

theorem chars_object (members : List (String × Json)) :
    (object members).chars =
      '\x7b' :: (commas ((members.map fun m => (m.1, m.2.chars)).map memberText) ++ ['\x7d']) := by
  have texts : memberTexts members = (members.map fun m => (m.1, m.2.chars)).map memberText := by
    induction members with
    | nil => rfl
    | cons m r ih =>
      obtain ⟨k, v⟩ := m
      rw [memberTexts, ih]
      rfl
  rw [chars, texts]
  rfl

theorem opens_chars {v : Json} (plain : v.Numberless) : Opens v.chars := by
  cases v with
  | null => exact ⟨_, _, rfl, rfl, by decide⟩
  | bool b => cases b <;> exact ⟨_, _, rfl, rfl, by decide⟩
  | number n => exact plain.elim
  | str s => exact ⟨_, _, rfl, rfl, by decide⟩
  | array items => exact ⟨_, _, rfl, rfl, by decide⟩
  | object members => exact ⟨_, _, rfl, rfl, by decide⟩

theorem takes_word (w : List Char) : Takes (word w) w () := by
  induction w with
  | nil => exact takes_pure ()
  | cons c r ih =>
    intro rest
    have first : word (c :: r) (c :: (r ++ rest)) = word r (r ++ rest) := if_pos rfl
    rw [List.cons_append, first]
    exact ih rest

/-- The reader of the members of an object collects them from the last to the first. -/
theorem leads_of_takes {read : Reader Json} {members : List (String × Json)}
    (each : ∀ m ∈ members, Takes read m.2.chars m.2) (acc : List (String × Json)) :
    Leads (fun acc key => .ok (do return (key, ← read) :: acc)) acc
      (members.map fun m => (m.1, m.2.chars)) (members.reverse ++ acc) := by
  induction members generalizing acc with
  | nil => exact .nil acc
  | cons m r ih =>
    obtain ⟨k, v⟩ := m
    have others := ih (fun m mem => each m (List.mem_cons_of_mem _ mem)) ((k, v) :: acc)
    rw [List.reverse_cons, List.append_assoc, List.singleton_append]
    exact .cons rfl ((each (k, v) (List.mem_cons_self ..)).finish rfl) others

/-- A printed value is read as the value where it nests no deeper than the reader goes. -/
theorem takes_tree {d : Nat} {v : Json} (plain : v.Numberless) (nests : v.depth ≤ d) :
    Takes (tree d) v.chars v := by
  -- The reader recurses on the depth that is left, not on the value.
  induction d using Nat.strongRecOn generalizing v with
  | ind d below =>
    unfold tree
    cases v with
    | null => exact takes_peek rfl (takes_skip ((takes_word _).finish rfl))
    | bool b =>
      cases b
      · exact takes_peek rfl (takes_skip ((takes_word _).finish rfl))
      · exact takes_peek rfl (takes_skip ((takes_word _).finish rfl))
    | number n => exact plain.elim
    | str s =>
      refine takes_peek rfl ?_
      exact takes_skip ((takes_stringRest s).map Json.str)
    | array items =>
      obtain ⟨e, rfl⟩ := Nat.exists_eq_succ_of_ne_zero (Nat.ne_zero_of_lt nests)
      have shallow := itemsDepth_le.1 (Nat.le_of_succ_le_succ nests)
      have each : List.Forall₂ (Takes (tree e)) (items.map chars) items := by
        rw [List.forall₂_map_left_iff, List.forall₂_same]
        intro v mem
        exact below e (Nat.lt_succ_self e) (numberlessItems_iff.1 plain v mem) (shallow v mem)
      have opens : ∀ t ∈ items.map chars, Opens t := by
        rintro _ mem
        obtain ⟨v, inside, rfl⟩ := List.mem_map.1 mem
        exact opens_chars (numberlessItems_iff.1 plain v inside)
      rw [chars_array]
      refine takes_peek rfl ?_
      exact takes_skip ((takes_items each opens).map Json.array)
    | object members =>
      obtain ⟨e, rfl⟩ := Nat.exists_eq_succ_of_ne_zero (Nat.ne_zero_of_lt nests)
      have shallow := membersDepth_le.1 (Nat.le_of_succ_le_succ nests)
      have each : ∀ m ∈ members, Takes (tree e) m.2.chars m.2 := by
        intro m mem
        exact below e (Nat.lt_succ_self e) (numberlessMembers_iff.1 plain m mem) (shallow m mem)
      have whole := (takes_members (leads_of_takes each [])).map fun acc => Json.object acc.reverse
      rw [List.append_nil, List.reverse_reverse] at whole
      rw [chars_object]
      refine takes_peek rfl ?_
      exact takes_skip whole

/-- An array whose items open with neither white space nor a bracket is read item by item. -/
theorem takes_array {α : Type} {item : Nat → Reader α} {json : α → Json} {values : List α} {d : Nat}
    (plain : ∀ a ∈ values, Opens (json a).chars)
    (each : ∀ a ∈ values, (json a).depth ≤ d → Takes (item d) (json a).chars a)
    (nests : (array (values.map json)).depth ≤ d + 1) :
    Takes (Reader.array (d + 1) item) (Json.array (values.map json)).chars values := by
  have shallow := itemsDepth_le.1 (Nat.le_of_succ_le_succ nests)
  have items : List.Forall₂ (Takes (item d)) ((values.map json).map chars) values := by
    rw [List.map_map, List.forall₂_map_left_iff, List.forall₂_same]
    intro a mem
    exact each a mem (shallow _ (List.mem_map_of_mem mem))
  rw [chars_array]
  refine takes_peek rfl ?_
  rw [if_pos rfl]
  refine takes_deeper (takes_skip (takes_items items ?_))
  simpa using plain

end PluginDescriptor.Json
