import PluginDescriptor.Entries

namespace PluginDescriptor

universe u v

/-- A map in the order of first insertion; no key occurs twice. An index beside the entries gives the place
of each key. -/
structure OrderedMap (α : Type u) (β : Type v) where
  entries : List (α × β)
  nodup_keys : (Entries.keys entries).Nodup
  /-- The place of every key among the entries. -/
  index : List (α × Nat) := (Entries.keys entries).zipIdx
  index_eq : index = (Entries.keys entries).zipIdx := by rfl

namespace OrderedMap

variable {α : Type u} {β : Type v}

/-- The index follows from the entries. -/
@[ext] theorem ext {m n : OrderedMap α β} (h : m.entries = n.entries) : m = n := by
  obtain ⟨entries, nodup, index, places⟩ := m
  obtain ⟨entries', nodup', index', places'⟩ := n
  cases h
  cases places
  cases places'
  rfl

instance [DecidableEq α] [DecidableEq β] : DecidableEq (OrderedMap α β) := fun m n =>
  decidable_of_iff (m.entries = n.entries) ⟨ext, congrArg entries⟩

def empty : OrderedMap α β where
  entries := []
  nodup_keys := List.nodup_nil

instance : EmptyCollection (OrderedMap α β) := ⟨empty⟩

instance : Inhabited (OrderedMap α β) := ⟨empty⟩

/-- The keys in the order of their first insertion. -/
def keys (m : OrderedMap α β) : List α := Entries.keys m.entries

def size (m : OrderedMap α β) : Nat := m.entries.length

def isEmpty (m : OrderedMap α β) : Bool := m.entries.isEmpty

variable [DecidableEq α]

/-- The place of a key among the entries. -/
def place? (m : OrderedMap α β) (k : α) : Option Nat := Entries.find? k m.index

/-- At the place of a key is its entry, which a search for the key would find and which writing
under the key would replace. -/
theorem entry_at_place {m : OrderedMap α β} {k : α} {i : Nat} (placed : m.place? k = some i) :
    ∃ v, m.entries[i]? = some (k, v) ∧ Entries.find? k m.entries = some v ∧
      ∀ w, Entries.put k w m.entries = m.entries.modify i fun e => (e.1, w) := by
  rw [place?, m.index_eq] at placed
  obtain ⟨j, v, rfl, entry⟩ := Entries.entry_at_place placed
  rw [Nat.zero_add]
  exact ⟨v, entry⟩

theorem place?_lt {m : OrderedMap α β} {k : α} {i : Nat} (placed : m.place? k = some i) :
    i < m.entries.length := by
  obtain ⟨v, entry, _⟩ := entry_at_place placed
  exact (List.getElem?_eq_some_iff.1 entry).1

theorem place?_eq_none_iff {m : OrderedMap α β} {k : α} : m.place? k = none ↔ k ∉ m.keys := by
  rw [place?, m.index_eq, Entries.find?_eq_none_iff, Entries.keys_zipIdx]
  rfl

def get? (m : OrderedMap α β) (k : α) : Option β :=
  match placed : m.place? k with
  | none => none
  | some i => some (m.entries.get ⟨i, place?_lt placed⟩).2

def contains (m : OrderedMap α β) (k : α) : Bool := (m.place? k).isSome

/-- Writes a value under a key, which keeps its place if it has one, and gives the value that was
there before. -/
def getThenInsert (m : OrderedMap α β) (k : α) (v : β) : Option β × OrderedMap α β :=
  match placed : m.place? k with
  | some i =>
    (some (m.entries.get ⟨i, place?_lt placed⟩).2,
      { entries := m.entries.modify i fun e => (e.1, v)
        nodup_keys := by rw [Entries.keys_modify]; exact m.nodup_keys
        index := m.index
        index_eq := by rw [Entries.keys_modify]; exact m.index_eq })
  | none =>
    (none,
      { entries := m.entries ++ [(k, v)]
        nodup_keys := Entries.nodup_keys_concat m.nodup_keys (place?_eq_none_iff.1 placed)
        index := m.index ++ [(k, m.entries.length)]
        index_eq := by
          rw [Entries.keys_concat, List.zipIdx_append, ← m.index_eq, Entries.keys, List.length_map,
            Nat.zero_add]
          rfl })

/-- Writes a value under a key, which keeps its place if it has one. -/
def insert (m : OrderedMap α β) (k : α) (v : β) : OrderedMap α β := (m.getThenInsert k v).2

def erase (m : OrderedMap α β) (k : α) : OrderedMap α β where
  entries := Entries.remove k m.entries
  nodup_keys := Entries.nodup_keys_remove m.nodup_keys k

def insertAll (m : OrderedMap α β) (l : List (α × β)) : OrderedMap α β :=
  l.foldl (fun m e => m.insert e.1 e.2) m

/-- The map of a list of entries; of two entries with one key the later gives the value. -/
def ofList (l : List (α × β)) : OrderedMap α β := empty.insertAll l

/-- Adds every entry of a second map to a first one. -/
def extend (m n : OrderedMap α β) : OrderedMap α β := m.insertAll n.entries

/-- Looking up the place of a key and searching the entries for it give the same. -/
theorem get?_eq_find? (m : OrderedMap α β) (k : α) : m.get? k = Entries.find? k m.entries := by
  unfold get?
  split
  · next absent => exact (Entries.find?_eq_none_iff.2 (place?_eq_none_iff.1 absent)).symm
  · next i placed =>
    obtain ⟨v, entry, found, _⟩ := entry_at_place placed
    rw [found, List.get_eq_getElem, (List.getElem?_eq_some_iff.1 entry).2]

theorem fst_getThenInsert (m : OrderedMap α β) (k : α) (v : β) :
    (m.getThenInsert k v).1 = m.get? k := by
  rw [get?_eq_find?]
  unfold getThenInsert
  split
  · next i placed =>
    obtain ⟨_, entry, found, _⟩ := entry_at_place placed
    rw [found, List.get_eq_getElem, (List.getElem?_eq_some_iff.1 entry).2]
  · next absent => exact (Entries.find?_eq_none_iff.2 (place?_eq_none_iff.1 absent)).symm

theorem entries_insert (m : OrderedMap α β) (k : α) (v : β) :
    (m.insert k v).entries = Entries.put k v m.entries := by
  unfold insert getThenInsert
  split
  · next i placed =>
    obtain ⟨_, _, _, replaced⟩ := entry_at_place placed
    exact (replaced v).symm
  · next absent => exact (Entries.put_of_not_mem (place?_eq_none_iff.1 absent)).symm

theorem keys_insert (m : OrderedMap α β) (k : α) (v : β) :
    (m.insert k v).keys = if k ∈ m.keys then m.keys else m.keys ++ [k] := by
  rw [keys, entries_insert]
  exact Entries.keys_put k v m.entries

theorem get?_insert (m : OrderedMap α β) (k k' : α) (v : β) :
    (m.insert k v).get? k' = if k' = k then some v else m.get? k' := by
  rw [get?_eq_find?, get?_eq_find?, entries_insert]
  exact Entries.find?_put k k' v m.entries

theorem get?_eq_none_iff (m : OrderedMap α β) (k : α) : m.get? k = none ↔ k ∉ m.keys := by
  rw [get?_eq_find?]
  exact Entries.find?_eq_none_iff

end OrderedMap
end PluginDescriptor
