import PluginDescriptor.Proofs.Success

namespace PluginDescriptor

universe u v

variable {ε : Type u} {α β γ : Type v} {e : ε}

theorem not_succeeds_iff {x : Except ε α} : ¬ Succeeds x ↔ ∃ e, x = .error e := by
  cases x <;> simp

theorem bind_eq_error {x : Except ε α} {f : α → Except ε β} :
    x >>= f = .error e ↔ x = .error e ∨ ∃ a, x = .ok a ∧ f a = .error e := by
  cases x <;> simp [bind, Except.bind]

/-- What is made of a result does not matter for the failure. -/
theorem bind_pure_eq_error {x : Except ε α} {f : α → β} :
    (do return f (← x)) = (.error e : Except ε β) ↔ x = .error e := by
  cases x <;> simp [bind, Except.bind, pure, Except.pure]

theorem map_eq_error {x : Except ε α} {f : α → β} : x.map f = .error e ↔ x = .error e := by
  cases x <;> simp [Except.map]

/-- The first reading of the row that fails, fails with this. -/
def FirstFails (f : α → Except ε β) (l : List α) (e : ε) : Prop :=
  ∃ before a after, l = before ++ a :: after ∧ (∀ b ∈ before, Succeeds (f b)) ∧ f a = .error e

section FirstFails

variable {f : α → Except ε β} {l : List α}

theorem firstFails_nil : ¬ FirstFails f [] e := by
  rintro ⟨before, a, after, split, _⟩
  simp at split

theorem firstFails_cons {a : α} :
    FirstFails f (a :: l) e ↔ f a = .error e ∨ Succeeds (f a) ∧ FirstFails f l e := by
  constructor
  · rintro ⟨before, b, after, split, passed, failed⟩
    cases before with
    | nil =>
      cases split
      exact Or.inl failed
    | cons c before =>
      cases split
      rw [List.forall_mem_cons] at passed
      exact Or.inr ⟨passed.1, before, b, after, rfl, passed.2, failed⟩
  · rintro (failed | ⟨first, before, b, after, rfl, passed, failed⟩)
    · exact ⟨[], a, l, rfl, by simp, failed⟩
    · exact ⟨a :: before, b, after, rfl, List.forall_mem_cons.2 ⟨first, passed⟩, failed⟩

/-- Only which elements fail, and how, counts. -/
theorem firstFails_congr {g : α → Except ε γ}
    (same : ∀ a ∈ l, ∀ e, f a = .error e ↔ g a = .error e) :
    FirstFails f l e ↔ FirstFails g l e := by
  have succeeds : ∀ a ∈ l, Succeeds (f a) ↔ Succeeds (g a) := fun a member => by
    rw [← not_iff_not, not_succeeds_iff, not_succeeds_iff]
    exact exists_congr (same a member)
  induction l with
  | nil => simp only [firstFails_nil]
  | cons a r ih =>
    rw [List.forall_mem_cons] at same succeeds
    rw [firstFails_cons, firstFails_cons]
    exact or_congr (same.1 e) (and_congr succeeds.1 (ih same.2 succeeds.2))

/-- A row of readings fails as the first of them that fails. -/
theorem mapM_eq_error : l.mapM f = .error e ↔ FirstFails f l e := by
  induction l with
  | nil => simp [firstFails_nil, pure, Except.pure]
  | cons a r ih =>
    rw [List.mapM_cons, firstFails_cons, bind_eq_error]
    refine or_congr_right ⟨?_, ?_⟩
    · rintro ⟨b, first, later⟩
      exact ⟨⟨b, first⟩, ih.1 (bind_pure_eq_error.1 later)⟩
    · rintro ⟨⟨b, first⟩, later⟩
      exact ⟨b, first, bind_pure_eq_error.2 (ih.2 later)⟩

theorem exists_firstFails : (∃ e, FirstFails f l e) ↔ ∃ a ∈ l, ¬ Succeeds (f a) := by
  simp only [← mapM_eq_error, ← not_succeeds_iff, succeeds_mapM, not_forall, exists_prop]

/-- Collecting results one by one fails as reading them in a row does. -/
theorem foldlM_eq_error {collect : γ → β → γ} {start : γ} :
    l.foldlM (fun c a => do return collect c (← f a)) start = .error e ↔ FirstFails f l e := by
  induction l generalizing start with
  | nil => simp [firstFails_nil, pure, Except.pure]
  | cons a r ih =>
    rw [List.foldlM_cons, firstFails_cons, bind_eq_error, bind_pure_eq_error]
    refine or_congr_right ⟨?_, ?_⟩
    · rintro ⟨c, first, later⟩
      obtain ⟨b, read, _⟩ := bind_eq_ok.1 first
      exact ⟨⟨b, read⟩, ih.1 later⟩
    · rintro ⟨⟨b, read⟩, later⟩
      exact ⟨collect start b, bind_eq_ok.2 ⟨b, read, rfl⟩, ih.2 later⟩

theorem succeeds_foldlM {collect : γ → β → γ} {start : γ} :
    Succeeds (l.foldlM (fun c a => do return collect c (← f a)) start) ↔ ∀ a ∈ l, Succeeds (f a) := by
  rw [← not_iff_not, not_succeeds_iff]
  simp only [foldlM_eq_error, exists_firstFails, not_forall, exists_prop]

/-- In a row that is sorted, the first reading that fails is the one before which, in the sense of the
sorting, none fails. -/
theorem firstFails_of_pairwise {R : α → α → Prop} (apart : ∀ a b, R a b → ¬ R b a)
    (sorted : l.Pairwise R) :
    FirstFails f l e ↔ ∃ a ∈ l, f a = .error e ∧ ∀ b ∈ l, R b a → Succeeds (f b) := by
  constructor
  · rintro ⟨before, a, after, rfl, passed, failed⟩
    rw [List.pairwise_append, List.pairwise_cons] at sorted
    refine ⟨a, by simp, failed, fun b member earlier => ?_⟩
    rcases List.mem_append.1 member with inside | member
    · exact passed b inside
    · rcases List.mem_cons.1 member with rfl | later
      · exact absurd earlier (apart b b earlier)
      · exact absurd earlier (apart a b (sorted.2.1.1 b later))
  · rintro ⟨a, member, failed, passed⟩
    obtain ⟨before, after, rfl⟩ := List.append_of_mem member
    refine ⟨before, a, after, rfl, fun b inside => ?_, failed⟩
    rw [List.pairwise_append] at sorted
    exact passed b (by simp [inside]) (sorted.2.2 b inside a (by simp))

/-- Checks one after the other fail as the first of them that fails. -/
theorem forM_eq_error {f : α → Except ε PUnit.{v + 1}} :
    forM l f = .error e ↔ FirstFails f l e := by
  induction l with
  | nil => simp [firstFails_nil, pure, Except.pure]
  | cons a r ih =>
    rw [List.forM_cons, firstFails_cons, bind_eq_error]
    simp only [ih, Succeeds, exists_and_right]

theorem succeeds_forM {f : α → Except ε PUnit.{v + 1}} :
    Succeeds (forM l f) ↔ ∀ a ∈ l, Succeeds (f a) := by
  induction l with
  | nil => simp
  | cons a r ih =>
    rw [List.forM_cons, succeeds_bind_const fun _ => ih, List.forall_mem_cons]

end FirstFails
end PluginDescriptor
