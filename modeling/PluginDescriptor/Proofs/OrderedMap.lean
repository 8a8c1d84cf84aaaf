import Mathlib.Data.List.Induction
import Mathlib.Data.List.Nodup
import PluginDescriptor.OrderedMap

namespace PluginDescriptor

universe u v

variable {α : Type u} {β : Type v} [DecidableEq α]

theorem eraseDups_concat (l : List α) (a : α) :
    (l ++ [a]).eraseDups = if a ∈ l then l.eraseDups else l.eraseDups ++ [a] := by
  rw [List.eraseDups_append]
  by_cases known : a ∈ l
  · simp [List.removeAll, known]
  · simp [List.removeAll, known, List.eraseDups_cons]

theorem eraseDups_append_eraseDups (l m : List α) :
    (l ++ m.eraseDups).eraseDups = (l ++ m).eraseDups := by
  induction m using List.reverseRecOn with
  | nil => rfl
  | append_singleton m a ih =>
    rw [eraseDups_concat, ← List.append_assoc, eraseDups_concat, ← ih]
    by_cases known : a ∈ m
    · simp [known]
    · simp [known, ← List.append_assoc, eraseDups_concat]

namespace Entries

theorem put_of_nodup {k : α} {v : β} {acc l : List (α × β)}
    (nodup : (keys (acc ++ (k, v) :: l)).Nodup) : put k v acc = acc ++ [(k, v)] := by
  refine put_of_not_mem fun known => ?_
  rw [keys, List.map_append, List.nodup_append] at nodup
  exact nodup.2.2 k known k (List.mem_cons_self ..) rfl

theorem collapse_of_nodup {l : List (α × β)} (nodup : (keys l).Nodup) : collapse l = l := by
  have folded : ∀ acc r : List (α × β), (keys (acc ++ r)).Nodup →
      r.foldl (fun acc e => put e.1 e.2 acc) acc = acc ++ r := by
    intro acc r
    induction r generalizing acc with
    | nil => simp
    | cons e r ih =>
      intro apart
      rw [List.foldl_cons, put_of_nodup apart, ih _ (by rwa [← List.append_cons]),
        ← List.append_cons]
  exact folded [] l nodup

theorem find?_remove {l : List (α × β)} (nodup : (keys l).Nodup) (k k' : α) :
    find? k' (remove k l) = if k' = k then none else find? k' l := by
  induction l with
  | nil => simp [remove, find?]
  | cons e r ih =>
    obtain ⟨k'', v⟩ := e
    obtain ⟨new, nodup'⟩ := List.nodup_cons.1 nodup
    have rest := ih nodup'
    by_cases first : k'' = k
    · subst first
      have gone : find? k'' r = none := find?_eq_none_iff.2 new
      by_cases same : k' = k''
      · simp [remove, same, gone]
      · simp [remove, find?, same, Ne.symm same]
    · by_cases same : k'' = k'
      · subst same
        simp [remove, find?, first]
      · simp [remove, find?, first, same, rest]

/-- A list without repeated keys is its keys, each with what is found under it. -/
theorem filterMap_keys {l : List (α × β)} (nodup : (keys l).Nodup) :
    (keys l).filterMap (fun k => (find? k l).map (Prod.mk k)) = l := by
  induction l with
  | nil => rfl
  | cons e r ih =>
    obtain ⟨k, v⟩ := e
    rw [keys_cons, List.nodup_cons] at nodup
    have later : ∀ k' ∈ keys r,
        (find? k' ((k, v) :: r)).map (Prod.mk k') = (find? k' r).map (Prod.mk k') := by
      intro k' member
      have other : k ≠ k' := fun same => nodup.1 (same ▸ member)
      rw [find?, if_neg other]
    rw [keys_cons, List.filterMap_cons, List.filterMap_congr later, ih nodup.2]
    simp only [find?, if_true, Option.map_some]

/-- The entries of a list without repeated keys can be told from its keys and what is under them. -/
theorem eq_of_keys_eq {l m : List (α × β)} (nodup : (keys l).Nodup) (same : keys l = keys m)
    (values : ∀ k, find? k l = find? k m) : l = m := by
  have distinct : (keys m).Nodup := same ▸ nodup
  calc l = (keys l).filterMap fun k => (find? k l).map (Prod.mk k) := (filterMap_keys nodup).symm
    _ = (keys m).filterMap fun k => (find? k m).map (Prod.mk k) := by simp only [same, values]
    _ = m := filterMap_keys distinct

end Entries

namespace OrderedMap

/-- Two maps are equal if they have the same keys in the same order and the same values. -/
theorem ext_get? {m n : OrderedMap α β} (same : m.keys = n.keys)
    (values : ∀ k, m.get? k = n.get? k) : m = n := by
  refine ext (Entries.eq_of_keys_eq m.nodup_keys same fun k => ?_)
  rw [← get?_eq_find?, ← get?_eq_find?, values]

theorem entries_eq_filterMap (m : OrderedMap α β) :
    m.entries = m.keys.filterMap fun k => (m.get? k).map (Prod.mk k) := by
  simp only [get?_eq_find?]
  exact (Entries.filterMap_keys m.nodup_keys).symm

theorem get?_erase (m : OrderedMap α β) (k k' : α) :
    (m.erase k).get? k' = if k' = k then none else m.get? k' := by
  rw [get?_eq_find?, get?_eq_find?]
  exact Entries.find?_remove m.nodup_keys k k'

@[simp] theorem insertAll_nil (m : OrderedMap α β) : m.insertAll [] = m := rfl

@[simp] theorem insertAll_append (m : OrderedMap α β) (k l : List (α × β)) :
    m.insertAll (k ++ l) = (m.insertAll k).insertAll l := List.foldl_append

theorem insertAll_concat (m : OrderedMap α β) (l : List (α × β)) (e : α × β) :
    m.insertAll (l ++ [e]) = (m.insertAll l).insert e.1 e.2 := insertAll_append m l [e]

theorem ofList_concat (l : List (α × β)) (e : α × β) :
    ofList (l ++ [e]) = (ofList l).insert e.1 e.2 := insertAll_concat empty l e

/-- The keys of a list of entries in the order of their first occurrence. -/
theorem keys_ofList (l : List (α × β)) : (ofList l).keys = (l.map Prod.fst).eraseDups := by
  induction l using List.reverseRecOn with
  | nil => rfl
  | append_singleton l e ih =>
    rw [ofList_concat, keys_insert, ih, List.map_append, List.map_cons, List.map_nil,
      eraseDups_concat]
    simp only [List.mem_eraseDups]

/-- Under each key of a list of entries is the value of the last entry with that key. -/
theorem get?_ofList (l : List (α × β)) (k : α) :
    (ofList l).get? k = (l.filter (·.1 = k)).getLast?.map Prod.snd := by
  induction l using List.reverseRecOn with
  | nil => rfl
  | append_singleton l e ih =>
    rw [ofList_concat, get?_insert, ih, List.filter_append, List.getLast?_append]
    by_cases same : e.1 = k
    · simp [same]
    · simp [same, Ne.symm same]

/-- What is found under a key was inserted under it. -/
theorem mem_of_get?_ofList {l : List (α × β)} {k : α} {v : β} (found : (ofList l).get? k = some v) :
    (k, v) ∈ l := by
  rw [get?_ofList, Option.map_eq_some_iff] at found
  obtain ⟨e, last, rfl⟩ := found
  have member := List.mem_of_getLast? last
  rw [List.mem_filter, decide_eq_true_eq] at member
  obtain ⟨member, rfl⟩ := member
  exact member

theorem mem_keys_ofList {l : List (α × β)} {k : α} : k ∈ (ofList l).keys ↔ ∃ v, (k, v) ∈ l := by
  rw [keys_ofList, List.mem_eraseDups, List.mem_map]
  constructor
  · rintro ⟨e, member, rfl⟩
    exact ⟨e.2, member⟩
  · rintro ⟨v, member⟩
    exact ⟨(k, v), member, rfl⟩

theorem get?_ofList_of_mem {l : List (α × β)} (nodup : (Entries.keys l).Nodup) {k : α} {v : β}
    (member : (k, v) ∈ l) : (ofList l).get? k = some v := by
  have known : k ∈ (ofList l).keys := mem_keys_ofList.2 ⟨v, member⟩
  cases found : (ofList l).get? k with
  | none => exact absurd known ((get?_eq_none_iff _ k).1 found)
  | some w =>
    have same := List.inj_on_of_nodup_map nodup (mem_of_get?_ofList found) member rfl
    cases same
    rfl

/-- What stands under a key does not depend on earlier entries if later ones have the key. -/
theorem get?_ofList_append_of_mem {l m : List (α × β)} {k : α} (own : k ∈ Entries.keys m) :
    (ofList (l ++ m)).get? k = (ofList m).get? k := by
  obtain ⟨e, member, named⟩ := List.mem_map.1 own
  have some_ : m.filter (·.1 = k) ≠ [] :=
    List.ne_nil_of_mem (List.mem_filter.2 ⟨member, by simpa using named⟩)
  rw [get?_ofList, get?_ofList, List.filter_append, List.getLast?_append,
    List.getLast?_eq_some_getLast some_]
  rfl

/-- Entries without repeated keys are those of the map that is built from them. -/
theorem entries_ofList {l : List (α × β)} (nodup : (Entries.keys l).Nodup) :
    (ofList l).entries = l := by
  induction l using List.reverseRecOn with
  | nil => rfl
  | append_singleton l e ih =>
    simp only [Entries.keys, List.map_append, List.nodup_append, List.map_cons, List.map_nil,
      List.mem_singleton, forall_eq] at nodup
    have new : e.1 ∉ Entries.keys l := fun known => nodup.2.2 e.1 known rfl
    rw [ofList_concat, entries_insert, ih nodup.1, Entries.put_of_not_mem new]

/-- Nothing is lost or moved when a map is built anew from its entries. -/
theorem ofList_entries (m : OrderedMap α β) : ofList m.entries = m :=
  ext (entries_ofList m.nodup_keys)

theorem insertAll_eq_ofList (m : OrderedMap α β) (l : List (α × β)) :
    m.insertAll l = ofList (m.entries ++ l) := by
  have start := ofList_entries m
  rw [ofList, insertAll_append, ← ofList, start]

/-- It makes no difference whether entries are first made a map of their own. -/
theorem extend_ofList (m : OrderedMap α β) (l : List (α × β)) :
    m.extend (ofList l) = m.insertAll l := by
  have again (k : α) : (((ofList l).entries.filter (·.1 = k)).getLast?.map Prod.snd) =
      (l.filter (·.1 = k)).getLast?.map Prod.snd := by
    rw [← get?_ofList, ofList_entries, get?_ofList]
  rw [extend, insertAll_eq_ofList, insertAll_eq_ofList]
  apply ext_get?
  · rw [keys_ofList, keys_ofList, List.map_append, List.map_append,
      ← eraseDups_append_eraseDups _ (l.map Prod.fst), ← keys_ofList l]
    rfl
  · intro k
    rw [get?_ofList, get?_ofList, List.filter_append, List.filter_append, List.getLast?_append,
      List.getLast?_append, Option.map_or, Option.map_or, again]

end OrderedMap
end PluginDescriptor
