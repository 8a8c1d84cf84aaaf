import Mathlib.Data.Finset.Card
import PluginDescriptor.Proofs.OrderedMap

namespace PluginDescriptor

universe u v

variable {α : Type u} {β : Type v} [DecidableEq α]

/-- The first entry with a key, seen from the end, is the last one. -/
theorem Entries.find?_reverse (l : List (α × β)) (k : α) :
    find? k l.reverse = (l.filter (·.1 = k)).getLast?.map Prod.snd := by
  induction l using List.reverseRecOn with
  | nil => rfl
  | append_singleton l e ih =>
    rw [List.reverse_concat, find?, ih, List.filter_append, List.getLast?_append]
    by_cases same : e.1 = k
    · simp [same]
    · simp [same]

/-- Writing under a key leaves every entry with another key in its place. -/
theorem Entries.getElem?_put_of_ne {l : List (α × β)} {k : α} {v : β} {i : Nat} {e : α × β}
    (other : e.1 ≠ k) : (put k v l)[i]? = some e ↔ l[i]? = some e := by
  induction l generalizing i with
  | nil => cases i <;> simp [put]; rintro rfl; exact other rfl
  | cons f r ih =>
    unfold put
    split
    · next same =>
      cases i with
      | zero =>
        simp only [List.getElem?_cons_zero, Option.some.injEq]
        constructor
        · rintro rfl
          exact (other rfl).elim
        · rintro rfl
          exact (other same).elim
      | succ i => rfl
    · cases i with
      | zero => rfl
      | succ i => exact ih

namespace OrderedMap

theorem contains_iff (m : OrderedMap α β) (k : α) : m.contains k = true ↔ k ∈ m.keys := by
  have absent := place?_eq_none_iff (m := m) (k := k)
  unfold contains
  cases placed : m.place? k with
  | none => simpa using absent.1 placed
  | some i =>
    rw [placed] at absent
    simpa using absent

/-- The index leads every key to its place and nothing else anywhere. -/
theorem place?_eq_some_iff (m : OrderedMap α β) (k : α) (i : Nat) :
    m.place? k = some i ↔ m.keys[i]? = some k := by
  have there {j : Nat} (placed : m.place? k = some j) : m.keys[j]? = some k := by
    obtain ⟨v, entry, _⟩ := entry_at_place placed
    rw [keys, Entries.keys, List.getElem?_map, entry]
    rfl
  refine ⟨there, fun found => ?_⟩
  cases placed : m.place? k with
  | none => exact (place?_eq_none_iff.1 placed (List.mem_of_getElem? found)).elim
  | some j =>
    have inside := (List.getElem?_eq_some_iff.1 found).1
    have same := (List.getElem?_inj inside m.nodup_keys).1 (found.trans (there placed).symm)
    rw [same]

theorem size_ofList (l : List (α × β)) : (ofList l).size = (l.map Prod.fst).toFinset.card := by
  have distinct := List.toFinset_card_of_nodup (ofList l).nodup_keys
  rw [Entries.keys, List.length_map] at distinct
  refine distinct.symm.trans (congrArg Finset.card (Finset.ext fun k => ?_))
  have same : (ofList l).entries.map Prod.fst = (l.map Prod.fst).eraseDups := keys_ofList l
  rw [same, List.mem_toFinset, List.mem_eraseDups, List.mem_toFinset]

theorem get?_ofList_eq_last (l : List (α × β)) (k : α) :
    (ofList l).get? k = Entries.find? k l.reverse := by
  rw [get?_ofList, Entries.find?_reverse]

/-- A map that is made of two lists one after the other is put together from those of the lists. -/
theorem ofList_append (l m : List (α × β)) : ofList (l ++ m) = (ofList l).extend (ofList m) := by
  rw [extend_ofList, ofList, insertAll_append, ← ofList]

theorem extend_assoc (m n o : OrderedMap α β) : (m.extend n).extend o = m.extend (n.extend o) := by
  rw [← ofList_entries m, ← ofList_entries n, ← ofList_entries o, ← ofList_append, ← ofList_append,
    ← ofList_append, ← ofList_append, List.append_assoc]

/-- Of two maps that are put together the later one gives the value of a key that both have. -/
theorem get?_extend (m n : OrderedMap α β) (k : α) : (m.extend n).get? k = (n.get? k).or (m.get? k) := by
  have own (o : OrderedMap α β) : o.get? k = (o.entries.filter (·.1 = k)).getLast?.map Prod.snd := by
    rw [← get?_ofList, ofList_entries]
  rw [extend, insertAll_eq_ofList, get?_ofList, List.filter_append, List.getLast?_append, Option.map_or,
    ← own, ← own]

/-- The keys of the earlier map stay where they are, and those that only the later one has follow. -/
theorem keys_extend (m n : OrderedMap α β) : (m.extend n).keys = (m.keys ++ n.keys).eraseDups := by
  rw [extend, insertAll_eq_ofList, keys_ofList, List.map_append]
  rfl

theorem empty_extend (m : OrderedMap α β) : OrderedMap.extend ∅ m = m := ofList_entries m

/-- Writing what a map already holds changes nothing. -/
theorem insert_of_get? {m : OrderedMap α β} {k : α} {v : β} (found : m.get? k = some v) :
    m.insert k v = m := by
  refine ext_get? ?_ fun k' => ?_
  · have known : k ∈ m.keys := by
      by_contra absent
      rw [(get?_eq_none_iff m k).2 absent] at found
      cases found
    rw [keys_insert, if_pos known]
  · rw [get?_insert]
    split
    · next same => rw [same, found]
    · rfl

theorem extend_self (m : OrderedMap α β) : m.extend m = m := by
  have held (l : List (α × β)) (inside : ∀ e ∈ l, m.get? e.1 = some e.2) : m.insertAll l = m := by
    induction l with
    | nil => rfl
    | cons e r ih =>
      rw [List.forall_mem_cons] at inside
      change (m.insert e.1 e.2).insertAll r = m
      rw [insert_of_get? inside.1, ih inside.2]
  refine held m.entries fun e member => ?_
  have found := get?_ofList_of_mem m.nodup_keys member
  rwa [ofList_entries] at found

/-- Maps that are made of groups of entries and put together in order are the map of all entries. -/
theorem foldl_extend_ofList (groups : List (List (α × β))) (start : OrderedMap α β) :
    (groups.map ofList).foldl extend start = start.extend (ofList groups.flatten) := by
  induction groups generalizing start with
  | nil => rfl
  | cons l groups ih =>
    rw [List.map_cons, List.foldl_cons, ih, List.flatten_cons, ofList_append, extend_assoc]

/-- Putting maps together is an associative operation with the empty map as its unit, in which the later
map gives the value of a key and the earlier one its place; a map adds nothing to itself, and making maps
of lists turns the concatenation of lists into it. -/
theorem extension_laws :
    (∀ m n o : OrderedMap α β, (m.extend n).extend o = m.extend (n.extend o)) ∧
      (∀ m : OrderedMap α β, m.extend ∅ = m ∧ OrderedMap.extend ∅ m = m ∧ m.extend m = m) ∧
      (∀ m n : OrderedMap α β, (m.extend n).keys = (m.keys ++ n.keys).eraseDups ∧
        ∀ k, (m.extend n).get? k = (n.get? k).or (m.get? k)) ∧
      (∀ l k : List (α × β), ofList (l ++ k) = (ofList l).extend (ofList k)) ∧
      ∀ groups : List (List (α × β)),
        (groups.map ofList).foldl extend ∅ = ofList groups.flatten := by
  refine ⟨extend_assoc, fun m => ⟨rfl, empty_extend m, extend_self m⟩,
    fun m n => ⟨keys_extend m n, get?_extend m n⟩, ofList_append, fun groups => ?_⟩
  rw [foldl_extend_ofList, empty_extend]

/-- How a map came about. -/
inductive History (α : Type u) (β : Type v) where
  | ofList (l : List (α × β))
  | insert (h : History α β) (k : α) (v : β)
  | extend (h g : History α β)

namespace History

def map : History α β → OrderedMap α β
  | ofList l => .ofList l
  | insert h k v => h.map.insert k v
  | extend h g => h.map.extend g.map

omit [DecidableEq α] in
/-- Everything that was entered, in order. -/
def entered : History α β → List (α × β)
  | ofList l => l
  | insert h k v => h.entered ++ [(k, v)]
  | extend h g => h.entered ++ g.entered

/-- Each step adds to the map what it enters at the end of the list. -/
theorem map_eq_ofList (h : History α β) : h.map = .ofList h.entered := by
  induction h with
  | ofList l => rfl
  | insert h k v ih => rw [map, entered, ih, ofList_concat]
  | extend h g ih ih' => rw [map, entered, ih, ih', ofList_append]

end History

/-- What a map shows of the entries that came into it one after the other. -/
structure Reflects (m : OrderedMap α β) (entered : List (α × β)) : Prop where
  /-- The keys stand in the order in which they were first entered, each of them once. -/
  keys : m.keys = (entered.map Prod.fst).eraseDups
  nodup : m.keys.Nodup
  size : m.size = (entered.map Prod.fst).toFinset.card
  /-- The index has exactly these keys and leads each of them to its place. -/
  index : Entries.keys m.index = m.keys
  place : ∀ k i, m.place? k = some i ↔ m.keys[i]? = some k
  inside : ∀ k i, m.place? k = some i → i < m.entries.length
  /-- Looking up is searching the entries, and finds what was entered last. -/
  get : ∀ k, m.get? k = Entries.find? k m.entries
  last : ∀ k, m.get? k = Entries.find? k entered.reverse
  contains : ∀ k, m.contains k = true ↔ k ∈ m.keys
  /-- Writing gives back what was there, if the key is known, and touches no other entry. -/
  previous : ∀ k v, (m.getThenInsert k v).1 = m.get? k
  known : ∀ k v, (m.getThenInsert k v).1.isSome ↔ k ∈ m.keys
  written : ∀ k v, (m.getThenInsert k v).2.get? k = some v
  others : ∀ k v (i : Nat) (e : α × β), e.1 ≠ k →
    ((m.getThenInsert k v).2.entries[i]? = some e ↔ m.entries[i]? = some e)

theorem reflects_ofList (l : List (α × β)) : (ofList l).Reflects l where
  keys := keys_ofList l
  nodup := (ofList l).nodup_keys
  size := size_ofList l
  index := by rw [(ofList l).index_eq, Entries.keys_zipIdx]; rfl
  place := place?_eq_some_iff _
  inside _ _ := place?_lt
  get := get?_eq_find? _
  last := get?_ofList_eq_last l
  contains := contains_iff _
  previous := fst_getThenInsert _
  known k v := by
    have absent := (get?_eq_none_iff (ofList l) k).not_left
    rw [fst_getThenInsert, Option.isSome_iff_ne_none]
    exact absent
  written k v := (get?_insert _ k k v).trans (if_pos rfl)
  others k v i e other := by
    have entries := entries_insert (ofList l) k v
    rw [insert] at entries
    rw [entries, Entries.getElem?_put_of_ne other]

/-- After any history a map reflects what was entered, and it is equal to another one exactly when
both have the same keys in the same order with the same values. -/
theorem History.map_reflects (h : History α β) :
    h.map.Reflects h.entered ∧
      (∀ g : History α β,
        h.map = g.map ↔ h.map.keys = g.map.keys ∧ ∀ k, h.map.get? k = g.map.get? k) ∧
      ∀ (_ : DecidableEq β) (g : History α β),
        (h.map == g.map) = true ↔ h.map.keys = g.map.keys ∧ ∀ k, h.map.get? k = g.map.get? k := by
  have same (g : History α β) :
      h.map = g.map ↔ h.map.keys = g.map.keys ∧ ∀ k, h.map.get? k = g.map.get? k := by
    constructor
    · intro equal
      rw [equal]
      exact ⟨rfl, fun _ => rfl⟩
    · rintro ⟨keys, values⟩
      exact ext_get? keys values
  refine ⟨?_, same, fun _ g => ?_⟩
  · rw [map_eq_ofList]
    exact reflects_ofList h.entered
  · rw [beq_iff_eq, same]

/-- A history in which a key comes back with another value, by itself and with another map. -/
example :
    let h : History String Nat :=
      .extend (.insert (.ofList [("fly", 1), ("land", 2)]) "fly" 3) (.ofList [("home", 4), ("land", 5)])
    h.map.entries = [("fly", 3), ("land", 5), ("home", 4)] ∧
      h.map.index = [("fly", 0), ("land", 1), ("home", 2)] := by
  decide

end OrderedMap
end PluginDescriptor
