import PluginDescriptor.Proofs.Acceptance

namespace PluginDescriptor

/-- The declaration breaks this rule as an entry point, and none of those that are checked before it. -/
inductive Declaration.Breaks (d : Declaration) : Violation → Prop
  | kind : d.kind ≠ .classType → d.kind ≠ .recordType → d.Breaks .notAClass
  | enclosing {t : String} : d.kind = .classType ∨ d.kind = .recordType → d.enclosing = .type t →
      d.Breaks .notTopLevel
  | static {p : String} : d.kind = .classType ∨ d.kind = .recordType → d.enclosing = .package p →
      .static ∈ d.modifiers → d.Breaks .staticNested
  | abstract {p : String} : d.kind = .classType ∨ d.kind = .recordType → d.enclosing = .package p →
      .static ∉ d.modifiers → .abstract ∈ d.modifiers → d.Breaks .isAbstract

theorem Declaration.isEntryPoint_or_breaks (d : Declaration) : d.IsEntryPoint ∨ ∃ v, d.Breaks v := by
  by_cases kind : d.kind = .classType ∨ d.kind = .recordType
  · cases enclosing : d.enclosing with
    | type t => exact Or.inr ⟨_, .enclosing kind enclosing⟩
    | package p =>
      by_cases notStatic : .static ∈ d.modifiers
      · exact Or.inr ⟨_, .static kind enclosing notStatic⟩
      · by_cases notAbstract : .abstract ∈ d.modifiers
        · exact Or.inr ⟨_, .abstract kind enclosing notStatic notAbstract⟩
        · exact Or.inl { kind, topLevel := ⟨p, enclosing⟩, notStatic, notAbstract }
  · rw [not_or] at kind
    exact Or.inr ⟨_, .kind kind.1 kind.2⟩

namespace EntryPoint

/-- Why a handle that is the only candidate is not chosen. -/
inductive Refuses (s : Scanner) (h : Handle) : Fault → Prop
  | unknown : s.declaration h = none → Refuses s h (.unknownDeclaration h)
  | unfit {d : Declaration} {v : Violation} : s.declaration h = some d → d.Breaks v →
      Refuses s h (.invalidEntryPoint d.qualifiedName v)

/-- Two choices have the same result, or both fail at too many candidates. -/
inductive Alike : Except Fault (Option Handle) → Except Fault (Option Handle) → Prop
  | same (r : Except Fault (Option Handle)) : Alike r r
  | several (m n : Nat) : Alike (.error (.multipleEntryPoints m)) (.error (.multipleEntryPoints n))

section Choosing

variable {s : Scanner} {h : Handle} {l l' : List Handle}

theorem violation?_of_breaks {d : Declaration} {v : Violation} (breaks : d.Breaks v) :
    violation? d = some v := by
  have isClass (kind : d.kind = .classType ∨ d.kind = .recordType) : d.kind.isClass = true := by
    rcases kind with kind | kind <;> rw [kind] <;> rfl
  unfold violation? Declaration.isTopLevel Declaration.hasModifier
  cases breaks with
  | kind noClass noRecord =>
    have other : d.kind.isClass = false := by
      cases kind : d.kind <;> simp_all [Kind.isClass]
    simp [other]
  | enclosing kind enclosing => simp [isClass kind, enclosing]
  | static kind enclosing static => simp [isClass kind, enclosing, static]
  | abstract kind enclosing notStatic abstract =>
    simp [isClass kind, enclosing, notStatic, abstract]

theorem violation?_eq_some {d : Declaration} {v : Violation} :
    violation? d = some v ↔ d.Breaks v := by
  refine ⟨fun violated => ?_, violation?_of_breaks⟩
  rcases d.isEntryPoint_or_breaks with fit | ⟨w, breaks⟩
  · rw [violation?_eq_none.2 fit] at violated
    cases violated
  · rw [violation?_of_breaks breaks] at violated
    exact Option.some.inj violated ▸ breaks

theorem choose_single_eq_error {e : Fault} : choose s [h] = .error e ↔ Refuses s h e := by
  constructor
  · intro failed
    simp only [choose] at failed
    split at failed
    · next unknown =>
      cases failed
      exact .unknown unknown
    · next d known =>
      split at failed
      · next v violated =>
        cases failed
        exact .unfit known (violation?_eq_some.1 violated)
      · cases failed
  · rintro (unknown | ⟨known, breaks⟩)
    · simp only [choose, unknown]
    · simp only [choose, known, violation?_of_breaks breaks]

theorem choose_of_several (several : 2 ≤ l.length) :
    choose s l = .error (.multipleEntryPoints l.length) := by
  match l, several with
  | _ :: _ :: _, _ => rfl

theorem choose_eq_several {n : Nat} :
    choose s l = .error (.multipleEntryPoints n) ↔ 2 ≤ l.length ∧ l.length = n := by
  constructor
  · intro failed
    match l, failed with
    | [h], failed => cases choose_single_eq_error.1 failed
    | _ :: _ :: r, failed =>
      cases failed
      exact ⟨Nat.le_add_left 2 r.length, rfl⟩
  · rintro ⟨several, rfl⟩
    exact choose_of_several several

/-- Two handles are among the candidates, or one is among them twice. -/
theorem two_le_length_iff : 2 ≤ l.length ↔ (∃ g ∈ l, ∃ h ∈ l, g ≠ h) ∨ ¬ l.Nodup := by
  constructor
  · intro several
    rw [or_iff_not_imp_right, not_not]
    intro once
    match l, several, once with
    | g :: h :: _, _, once =>
      have apart : g ≠ h := fun same => (List.nodup_cons.1 once).1 (same ▸ List.mem_cons_self)
      exact ⟨g, List.mem_cons_self, h, List.mem_cons_of_mem _ List.mem_cons_self, apart⟩
  · intro several
    by_contra few
    match l, few with
    | [], _ => simp at several
    | [h], _ => simp at several
    | _ :: _ :: _, few => exact few (by simp)

theorem eq_of_few (members : ∀ h, h ∈ l ↔ h ∈ l') (few : l.length ≤ 1) (few' : l'.length ≤ 1) :
    l = l' := by
  match l, l', few, few' with
  | [], [], _, _ => rfl
  | [g], [h], _, _ => rw [List.mem_singleton.1 ((members g).1 (List.mem_singleton_self g))]
  | [], [h], _, _ => cases (members h).2 (List.mem_singleton_self h)
  | [g], [], _, _ => cases (members g).1 (List.mem_singleton_self g)

theorem Alike.several_iff {r r' : Except Fault (Option Handle)} (alike : Alike r r') :
    (∃ n, r = .error (.multipleEntryPoints n)) ↔ ∃ n, r' = .error (.multipleEntryPoints n) := by
  cases alike with
  | same => exact Iff.rfl
  | several m n => exact ⟨fun _ => ⟨n, rfl⟩, fun _ => ⟨m, rfl⟩⟩

/-- Among the same candidates the choice comes to the same unless one of the lists, and only one, has a
single entry. -/
theorem alike_choose_iff (members : ∀ h, h ∈ l ↔ h ∈ l') :
    Alike (choose s l) (choose s l') ↔ (l.length ≤ 1 ↔ l'.length ≤ 1) := by
  constructor
  · intro alike
    have several := alike.several_iff
    simp only [choose_eq_several, exists_and_left, exists_eq', and_true] at several
    omega
  · intro counts
    by_cases few : l.length ≤ 1
    · rw [eq_of_few members few (counts.1 few)]
      exact .same _
    · have few' : ¬ l'.length ≤ 1 := fun few' => few (counts.2 few')
      rw [choose_of_several (by omega), choose_of_several (by omega)]
      exact .several _ _

/-- Among candidates that are not repeated only the set of them counts. -/
theorem choose_eq_of_nodup (members : ∀ h, h ∈ l ↔ h ∈ l') (once : l.Nodup) (once' : l'.Nodup) :
    choose s l = choose s l' := by
  have length : l.length = l'.length := ((List.perm_ext_iff_of_nodup once once').2 members).length_eq
  by_cases few : l.length ≤ 1
  · rw [eq_of_few members few (length ▸ few)]
  · rw [choose_of_several (by omega), choose_of_several (by omega), length]

end Choosing

/-- The choice depends on the set of the candidates alone as long as none of them is repeated. Two lists of
the same candidates come to the same fault, the same entry point or none unless one of them names a single
handle once and the other one names it several times: a repetition is refused like a second entry point.
A handle that is named once is chosen if it leads to a class that can stand by itself, and the first rule
that is broken says why not. -/
theorem choose_decided_by_candidates (s : Scanner) :
    (∀ l l' : List Handle, (∀ h, h ∈ l ↔ h ∈ l') →
      (Alike (choose s l) (choose s l') ↔ (l.length ≤ 1 ↔ l'.length ≤ 1)) ∧
      (l.Nodup → l'.Nodup → choose s l = choose s l')) ∧
    (∀ l : List Handle, (choose s l = .ok none ↔ l = []) ∧
      ((∃ n, choose s l = .error (.multipleEntryPoints n)) ↔
        (∃ g ∈ l, ∃ h ∈ l, g ≠ h) ∨ ¬ l.Nodup)) ∧
    ∀ h, (choose s [h] = .ok (some h) ↔ ∃ d, s.declaration h = some d ∧ d.IsEntryPoint) ∧
      ∀ e, choose s [h] = .error e ↔ Refuses s h e := by
  refine ⟨fun l l' members => ⟨alike_choose_iff members, choose_eq_of_nodup members⟩,
    fun l => ⟨choose_eq_none, ?_⟩, fun h => ⟨?_, fun e => choose_single_eq_error⟩⟩
  · simp only [choose_eq_several, exists_and_left, exists_eq', and_true, two_le_length_iff]
  · rw [choose_eq_some, and_iff_right rfl]

/-- Two plugins, either of which could be the entry point. -/
def twoPlugins : Snapshot :=
  ⟨[{ qualifiedName := "demo.Main", kind := .classType, enclosing := .package "demo",
      annotations := [⟨.plugin, []⟩] },
    { qualifiedName := "demo.Spare", kind := .recordType, enclosing := .package "demo",
      annotations := [⟨.plugin, []⟩] }]⟩

theorem choose_decided_by_candidates_twoPlugins :
    (∀ h, h ∈ [1, 0] ↔ h ∈ [0, 1]) ∧ [1, 0].Nodup ∧ [0, 1].Nodup ∧
      choose twoPlugins.scanner [1, 0] = choose twoPlugins.scanner [0, 1] ∧
    (∀ h, h ∈ [1, 0, 1] ↔ h ∈ [0, 1]) ∧
      Alike (choose twoPlugins.scanner [1, 0, 1]) (choose twoPlugins.scanner [0, 1]) := by
  have members (h : Handle) : h ∈ [1, 0] ↔ h ∈ [0, 1] := by
    simp only [List.mem_cons, List.not_mem_nil]
    tauto
  have members' (h : Handle) : h ∈ [1, 0, 1] ↔ h ∈ [0, 1] := by
    simp only [List.mem_cons, List.not_mem_nil]
    tauto
  have decided := (choose_decided_by_candidates twoPlugins.scanner).1
  exact ⟨members, by decide, by decide, (decided _ _ members).2 (by decide) (by decide),
    members', (decided _ _ members').1.2 (by decide)⟩

/-- The same single declaration is accepted where it is named once and refused where it is named twice. -/
theorem choose_refuses_repetition :
    (∀ h, h ∈ [0, 0] ↔ h ∈ [0]) ∧ choose twoPlugins.scanner [0] = .ok (some 0) ∧
      choose twoPlugins.scanner [0, 0] = .error (.multipleEntryPoints 2) := by
  refine ⟨fun h => ?_, rfl, rfl⟩
  simp only [List.mem_cons, List.not_mem_nil, or_false, or_self]

end EntryPoint
end PluginDescriptor
