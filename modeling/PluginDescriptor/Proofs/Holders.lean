import PluginDescriptor.Proofs.Relevance

namespace PluginDescriptor.Registry

/-- Only one ascending row has these members. -/
theorem ascending_eq {l row : List Handle} (sorted : row.Pairwise (· < ·))
    (members : ∀ h, h ∈ row ↔ h ∈ l) : ascending l = row :=
  (pairwise_ascending l).eq_of_mem_iff sorted fun h => mem_ascending.trans (members h).symm

/-- What holds items has to be a declaration, and a type. -/
def check (r : Registry) (declaration : Handle → Option Declaration) (h : Handle) :
    Except Fault Unit :=
  match declaration h with
  | none => .error (.unknownDeclaration h)
  | some d => r.requireType d

/-- The items of a declaration; where there is none there are no items. -/
def itemsAt (r : Registry) (declaration : Handle → Option Declaration) (h : Handle) :
    Except Fault Document :=
  match declaration h with
  | none => .ok ∅
  | some d => r.itemsFrom d

/-- Merging along a row of handles: all of them are checked in the order of the row, and then their items
are read in the same order, but those of the entry point at the end. -/
def mergeAlong (r : Registry) (declaration : Handle → Option Declaration) (row : List Handle)
    (entry : Handle) : Except Fault Document := do
  forM row (r.check declaration)
  (row.filter (· != entry) ++ [entry]).foldlM
    (fun merged h => do return merged.extend (← r.itemsAt declaration h)) ∅

variable {r : Registry} {s : Scanner}

theorem itemsOf_eq_itemsAt (h : Handle) : r.itemsOf s h = r.itemsAt s.declaration h := by
  unfold itemsOf itemsAt Scanner.instances
  cases s.declaration h <;> rfl

theorem checkedHolders_eq_forM : r.checkedHolders s = (do
    forM (ascending (s.scan r.container ++ s.scan r.single)) (r.check s.declaration)
    return ascending (s.scan r.container ++ s.scan r.single)) := by
  unfold checkedHolders
  generalize ascending (s.scan r.container ++ s.scan r.single) = row
  induction row with
  | nil => rfl
  | cons h rest ih =>
    rw [List.mapM_cons, ih, List.forM_cons, check]
    cases s.declaration h with
    | none => rfl
    | some d =>
      by_cases isType : d.kind.isType = true
      · simp only [requireType, isType, if_true, bind_assoc, pure_bind]
        rfl
      · simp only [requireType, isType]
        rfl

/-- Whatever a scanner finds, and however it says so, merging goes along the ascending row of it. -/
theorem merge_eq_mergeAlong {row : List Handle} (sorted : row.Pairwise (· < ·))
    (found : ∀ h, h ∈ row ↔ h ∈ s.scan r.container ++ s.scan r.single) (entry : Handle) :
    r.merge s entry = r.mergeAlong s.declaration row entry := by
  simp only [merge, mergeAlong, checkedHolders_eq_forM, ascending_eq sorted found,
    itemsOf_eq_itemsAt, bind_assoc, pure_bind]

/-- Two scanners that find the same handles lead to the same merging. -/
theorem merge_eq_of_found {t : Scanner} (declarations : ∀ h, s.declaration h = t.declaration h)
    (found : ∀ h, h ∈ s.scan r.container ++ s.scan r.single ↔
      h ∈ t.scan r.container ++ t.scan r.single) (entry : Handle) :
    r.merge s entry = r.merge t entry := by
  have sorted := pairwise_ascending (s.scan r.container ++ s.scan r.single)
  rw [merge_eq_mergeAlong sorted (fun _ => mem_ascending),
    merge_eq_mergeAlong (s := t) sorted (fun h => mem_ascending.trans (found h)),
    funext declarations]

/-- Which handles a scanner finds decides what merging comes to, and not in which order, how often, or
under which of the two markers it finds them: every declaration is checked and read once, in ascending
order. -/
theorem merge_decided_by_found {s t : Scanner} (declarations : ∀ h, s.declaration h = t.declaration h) :
    ((∀ h, h ∈ s.scan .commands ++ s.scan .command ↔ h ∈ t.scan .commands ++ t.scan .command) →
      ∀ entry, commands.merge s entry = commands.merge t entry) ∧
    ((∀ h, h ∈ s.scan .permissions ++ s.scan .permission ↔
        h ∈ t.scan .permissions ++ t.scan .permission) →
      ∀ entry, permissions.merge s entry = permissions.merge t entry) ∧
    ∀ (r : Registry) (row : List Handle), row.Pairwise (· < ·) →
      (∀ h, h ∈ row ↔ h ∈ s.scan r.container ++ s.scan r.single) →
      ∀ entry, r.merge s entry = r.mergeAlong s.declaration row entry :=
  ⟨fun found => merge_eq_of_found (r := commands) declarations found,
    fun found => merge_eq_of_found (r := permissions) declarations found,
    fun _ _ sorted found => merge_eq_mergeAlong sorted found⟩

/-- The declarations of `clash`, found in disorder, more than once, and with a handle among the
permissions that leads nowhere. -/
def scattered : Scanner where
  scan
    | .commands => [1, 0, 1]
    | .command => [0]
    | .permissions => [7, 0, 7]
    | _ => []
  declaration := clash.scanner.declaration

/-- The same handles, each found once. -/
def tidy : Scanner where
  scan
    | .commands => [1]
    | .command => [0]
    | .permissions => [0]
    | .permission => [7]
    | _ => []
  declaration := clash.scanner.declaration

theorem merge_decided_by_found_scattered :
    (∀ h, scattered.declaration h = tidy.declaration h) ∧
    ((∀ h, h ∈ scattered.scan .commands ++ scattered.scan .command ↔
        h ∈ tidy.scan .commands ++ tidy.scan .command) ∧
      commands.merge scattered 0 = commands.merge tidy 0 ∧
      (∃ merged, commands.merge tidy 0 = .ok merged ∧ merged.keys = ["land", "fly"])) ∧
    ((∀ h, h ∈ scattered.scan .permissions ++ scattered.scan .permission ↔
        h ∈ tidy.scan .permissions ++ tidy.scan .permission) ∧
      permissions.merge scattered 0 = permissions.merge tidy 0 ∧
      permissions.merge tidy 0 = .error (.unknownDeclaration 7)) ∧
    [0, 1].Pairwise (· < ·) ∧
    (∀ h, h ∈ [0, 1] ↔ h ∈ scattered.scan .commands ++ scattered.scan .command) ∧
    commands.merge scattered 0 = commands.mergeAlong scattered.declaration [0, 1] 0 := by
  have declarations (h : Handle) : scattered.declaration h = tidy.declaration h := rfl
  have sameCommands (h : Handle) : h ∈ scattered.scan .commands ++ scattered.scan .command ↔
      h ∈ tidy.scan .commands ++ tidy.scan .command := by
    simp only [scattered, tidy, List.mem_append, List.mem_cons, List.not_mem_nil]
    tauto
  have samePermissions (h : Handle) :
      h ∈ scattered.scan .permissions ++ scattered.scan .permission ↔
        h ∈ tidy.scan .permissions ++ tidy.scan .permission := by
    simp only [scattered, tidy, List.mem_append, List.mem_cons, List.not_mem_nil]
    tauto
  have row (h : Handle) :
      h ∈ [0, 1] ↔ h ∈ scattered.scan .commands ++ scattered.scan .command := by
    simp only [scattered, List.mem_append, List.mem_cons, List.not_mem_nil]
    tauto
  have decided := merge_decided_by_found declarations
  exact ⟨declarations, ⟨sameCommands, decided.1 sameCommands 0, _, rfl, rfl⟩,
    ⟨samePermissions, decided.2.1 samePermissions 0, rfl⟩, by decide, row,
    decided.2.2 commands [0, 1] (by decide) row 0⟩

end PluginDescriptor.Registry
