namespace PluginDescriptor.Entries

universe u v

variable {α : Type u} {β : Type v}

def keys (l : List (α × β)) : List α := l.map Prod.fst

@[simp] theorem keys_nil : keys ([] : List (α × β)) = [] := rfl

@[simp] theorem keys_cons (e : α × β) (l : List (α × β)) : keys (e :: l) = e.1 :: keys l := rfl

theorem keys_concat (l : List (α × β)) (e : α × β) : keys (l ++ [e]) = keys l ++ [e.1] :=
  List.map_append

/-- Another value at some place changes no key. -/
theorem keys_modify (l : List (α × β)) (i : Nat) (v : β) :
    keys (l.modify i fun e => (e.1, v)) = keys l := by
  induction l generalizing i with
  | nil => cases i <;> rfl
  | cons e r ih => cases i with
    | zero => rfl
    | succ i => exact congrArg (e.1 :: ·) (ih i)

theorem keys_zipIdx (l : List α) (n : Nat) : keys (l.zipIdx n) = l := by
  induction l generalizing n with
  | nil => rfl
  | cons k r ih => exact congrArg (k :: ·) (ih (n + 1))

theorem nodup_keys_concat {l : List (α × β)} (h : (keys l).Nodup) {k : α} {v : β}
    (new : k ∉ keys l) : (keys (l ++ [(k, v)])).Nodup := by
  rw [keys_concat, List.nodup_append]
  refine ⟨h, by simp, fun a member b last => ?_⟩
  rintro rfl
  rw [List.mem_singleton.1 last] at member
  exact new member

variable [DecidableEq α]

/-- The value of the first entry with this key. -/
def find? (k : α) : List (α × β) → Option β
  | [] => none
  | (k', v) :: r => if k' = k then some v else find? k r

/-- Writes a value under a key: in the key's place if it has one, else at the end. -/
def put (k : α) (v : β) : List (α × β) → List (α × β)
  | [] => [(k, v)]
  | (k', v') :: r => if k' = k then (k, v) :: r else (k', v') :: put k v r

/-- Entries with the later value of every repeated key. -/
def collapse (l : List (α × β)) : List (α × β) := l.foldl (fun acc e => put e.1 e.2 acc) []

/-- Removes the first entry with this key. -/
def remove (k : α) : List (α × β) → List (α × β)
  | [] => []
  | (k', v) :: r => if k' = k then r else (k', v) :: remove k r

/-- A known key keeps its place and a new one goes to the end. -/
theorem keys_put (k : α) (v : β) (l : List (α × β)) :
    keys (put k v l) = if k ∈ keys l then keys l else keys l ++ [k] := by
  induction l with
  | nil => rfl
  | cons e r ih => grind [put, keys_cons]

theorem find?_put (k k' : α) (v : β) (l : List (α × β)) :
    find? k' (put k v l) = if k' = k then some v else find? k' l := by
  induction l with
  | nil => grind [put, find?]
  | cons e r ih => grind [put, find?]

theorem find?_eq_none_iff {k : α} {l : List (α × β)} : find? k l = none ↔ k ∉ keys l := by
  induction l with
  | nil => simp [find?]
  | cons e r ih => grind [find?, keys_cons]

theorem keys_remove_sublist (k : α) (l : List (α × β)) :
    (keys (remove k l)).Sublist (keys l) := by
  induction l with
  | nil => exact .slnil
  | cons e r ih =>
    unfold remove
    split
    · exact List.sublist_cons_self ..
    · exact ih.cons_cons _

theorem nodup_keys_remove {l : List (α × β)} (h : (keys l).Nodup) (k : α) :
    (keys (remove k l)).Nodup :=
  h.sublist (keys_remove_sublist k l)

theorem put_of_not_mem {k : α} {v : β} {l : List (α × β)} (new : k ∉ keys l) :
    put k v l = l ++ [(k, v)] := by
  induction l with
  | nil => rfl
  | cons e r ih =>
    obtain ⟨k', v'⟩ := e
    simp only [keys_cons, List.mem_cons, not_or] at new
    simp [put, Ne.symm new.1, ih new.2]

/-- A key is found among numbered keys at the place of its first entry. -/
theorem entry_at_place {k : α} {n i : Nat} {l : List (α × β)}
    (placed : find? k ((keys l).zipIdx n) = some i) :
    ∃ j v, i = n + j ∧ l[j]? = some (k, v) ∧ find? k l = some v ∧
      ∀ w, put k w l = l.modify j fun e => (e.1, w) := by
  induction l generalizing n with
  | nil => simp [find?] at placed
  | cons e r ih =>
    obtain ⟨k', v'⟩ := e
    rw [keys_cons, List.zipIdx_cons, find?] at placed
    split at placed
    · next same =>
      subst same
      cases placed
      exact ⟨0, v', rfl, rfl, if_pos rfl, fun w => if_pos rfl⟩
    · next other =>
      obtain ⟨j, v, rfl, entry, found, replaced⟩ := ih placed
      refine ⟨j + 1, v, by omega, by simpa using entry, ?_, fun w => ?_⟩
      · rw [find?, if_neg other, found]
      · rw [put, if_neg other, replaced w]
        rfl

end PluginDescriptor.Entries
