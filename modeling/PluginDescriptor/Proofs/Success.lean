import Mathlib.Data.List.Forall2

namespace PluginDescriptor

universe u v w

variable {ε : Type u} {α : Type v} {β : Type v}

/-- The reading gives a result. -/
def Succeeds (x : Except ε α) : Prop := ∃ a, x = .ok a

@[simp] theorem succeeds_ok (a : α) : Succeeds (.ok a : Except ε α) := ⟨a, rfl⟩

@[simp] theorem not_succeeds_error (e : ε) : ¬ Succeeds (.error e : Except ε α) := nofun

@[simp] theorem succeeds_pure (a : α) : Succeeds (pure a : Except ε α) := ⟨a, rfl⟩

@[simp] theorem pure_eq_ok {a b : α} : (pure a : Except ε α) = .ok b ↔ a = b := by
  simp [pure, Except.pure]

theorem bind_eq_ok {x : Except ε α} {f : α → Except ε β} {b : β} :
    x >>= f = .ok b ↔ ∃ a, x = .ok a ∧ f a = .ok b := by
  cases x with
  | error e => simp [bind, Except.bind]
  | ok a => simp [bind, Except.bind]

theorem map_eq_ok {x : Except ε α} {f : α → β} {b : β} :
    x.map f = .ok b ↔ ∃ a, x = .ok a ∧ f a = b := by
  cases x <;> simp [Except.map]

theorem succeeds_bind {x : Except ε α} {f : α → Except ε β} :
    Succeeds (x >>= f) ↔ ∃ a, x = .ok a ∧ Succeeds (f a) := by
  simp only [Succeeds, bind_eq_ok]
  exact ⟨fun ⟨b, a, first, second⟩ => ⟨a, first, b, second⟩,
    fun ⟨a, first, b, second⟩ => ⟨b, a, first, second⟩⟩

/-- Two readings of which the second does not depend on the first. -/
theorem succeeds_bind_const {x : Except ε α} {f : α → Except ε β} {P : Prop}
    (rest : ∀ a, Succeeds (f a) ↔ P) : Succeeds (x >>= f) ↔ Succeeds x ∧ P := by
  simp only [succeeds_bind, rest, exists_and_right]
  rfl

/-- What comes after a reading does not matter if it cannot fail. -/
theorem succeeds_bind_of_total {x : Except ε α} {f : α → Except ε β} (total : ∀ a, Succeeds (f a)) :
    Succeeds (x >>= f) ↔ Succeeds x := by
  rw [succeeds_bind_const fun a => iff_true_intro (total a), and_true]

@[simp] theorem succeeds_map {x : Except ε α} {f : α → β} : Succeeds (x.map f) ↔ Succeeds x := by
  cases x with
  | error e => simp [Except.map]
  | ok a => simp [Except.map]

/-- A row of readings gives the row of their results. -/
theorem mapM_eq_ok {f : α → Except ε β} {l : List α} {results : List β} :
    l.mapM f = .ok results ↔ List.Forall₂ (fun a b => f a = .ok b) l results := by
  induction l generalizing results with
  | nil => cases results <;> simp [pure, Except.pure]
  | cons a r ih =>
    rw [List.mapM_cons, bind_eq_ok, List.forall₂_cons_left_iff]
    simp only [bind_eq_ok, ih, pure_eq_ok]
    constructor
    · rintro ⟨b, first, s, rest, rfl⟩
      exact ⟨b, s, first, rest, rfl⟩
    · rintro ⟨b, s, first, rest, rfl⟩
      exact ⟨b, first, s, rest, rfl⟩

theorem succeeds_mapM {f : α → Except ε β} {l : List α} :
    Succeeds (l.mapM f) ↔ ∀ a ∈ l, Succeeds (f a) := by
  induction l with
  | nil => simp
  | cons a r ih =>
    rw [List.mapM_cons, succeeds_bind, List.forall_mem_cons, ← ih]
    constructor
    · rintro ⟨b, first, rest⟩
      exact ⟨⟨b, first⟩, (succeeds_bind_of_total fun _ => succeeds_pure _).1 rest⟩
    · rintro ⟨⟨b, first⟩, rest⟩
      exact ⟨b, first, (succeeds_bind_of_total fun _ => succeeds_pure _).2 rest⟩

/-- Every reading of a row has its result among the results. -/
theorem exists_result_of_mem {f : α → Except ε β} {l : List α} {results : List β}
    (run : l.mapM f = .ok results) {a : α} (member : a ∈ l) : ∃ b ∈ results, f a = .ok b := by
  rw [mapM_eq_ok] at run
  induction run with
  | nil => cases member
  | cons first _ ih =>
    rcases List.mem_cons.1 member with rfl | later
    · exact ⟨_, List.mem_cons_self .., first⟩
    · obtain ⟨b, inside, read⟩ := ih later
      exact ⟨b, List.mem_cons_of_mem _ inside, read⟩

/-- Every result of a row is that of a reading. -/
theorem exists_reading_of_mem {f : α → Except ε β} {l : List α} {results : List β}
    (run : l.mapM f = .ok results) {b : β} (member : b ∈ results) : ∃ a ∈ l, f a = .ok b := by
  rw [mapM_eq_ok] at run
  induction run with
  | nil => cases member
  | cons first _ ih =>
    rcases List.mem_cons.1 member with rfl | later
    · exact ⟨_, List.mem_cons_self .., first⟩
    · obtain ⟨a, inside, read⟩ := ih later
      exact ⟨a, List.mem_cons_of_mem _ inside, read⟩

/-- Two rows of readings one after the other. -/
theorem mapM_append_eq_ok {f : α → Except ε β} {l m : List α} {results : List β} :
    (l ++ m).mapM f = .ok results ↔
      ∃ before after, l.mapM f = .ok before ∧ m.mapM f = .ok after ∧ results = before ++ after := by
  simp only [List.mapM_append, bind_eq_ok, pure_eq_ok]
  grind

/-- Readings whose results are all treated alike. -/
theorem mapM_bind_pure_eq_ok {γ : Type v} {f : α → Except ε β} {g : β → γ} {l : List α}
    {results : List γ} :
    (l.mapM fun a => do return g (← f a)) = .ok results ↔
      ∃ read, l.mapM f = .ok read ∧ results = read.map g := by
  simp only [mapM_eq_ok, bind_eq_ok, pure_eq_ok]
  induction l generalizing results with
  | nil => simp
  | cons a r ih =>
    simp only [List.forall₂_cons_left_iff, ih]
    constructor
    · rintro ⟨_, _, ⟨b, first, rfl⟩, ⟨read, rest, rfl⟩, rfl⟩
      exact ⟨b :: read, ⟨b, read, first, rest, rfl⟩, rfl⟩
    · rintro ⟨_, ⟨b, read, first, rest, rfl⟩, rfl⟩
      exact ⟨g b, read.map g, ⟨b, first, rfl⟩, ⟨read, rest, rfl⟩, rfl⟩

end PluginDescriptor
