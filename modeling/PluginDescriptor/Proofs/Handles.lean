import PluginDescriptor.Proofs.Faults

namespace PluginDescriptor

/-- The markers for which an assembly scans. -/
def Marker.scanned : List Marker := .plugin :: items

section Dangling

variable {s : Scanner} {h : Handle}

/-- The handle is found in a scan of an assembly, and nothing is known under it. -/
structure Scanner.Dangles (s : Scanner) (h : Handle) : Prop where
  found : ∃ m ∈ Marker.scanned, h ∈ s.scan m
  unknown : s.declaration h = none

theorem Scanner.Causes.dangles (causes : s.Causes (.unknownDeclaration h)) : s.Dangles h := by
  generalize failed : Fault.unknownDeclaration h = e at causes
  cases causes with
  | unknownEntry scanned unknown =>
    cases failed
    exact ⟨⟨.plugin, List.mem_cons_self, scanned ▸ List.mem_singleton_self _⟩, unknown⟩
  | unknownHolder member found unknown =>
    cases failed
    obtain ⟨_, single, container⟩ := Registry.markers_of_mem member
    rcases List.mem_append.1 found with inContainer | alone
    · exact ⟨⟨_, List.mem_cons_of_mem _ container, inContainer⟩, unknown⟩
    · exact ⟨⟨_, List.mem_cons_of_mem _ single, alone⟩, unknown⟩
  | field fault =>
    subst failed
    cases fault
  | notAType member =>
    simp only [Registry.both, List.mem_cons, List.not_mem_nil, or_false] at member
    rcases member with rfl | rfl <;> cases failed
  | several | unfit => cases failed

theorem EntryPoint.known_of_choose {candidates : List Handle}
    (chosen : choose s candidates = .ok (some h)) : ∃ d, s.declaration h = some d := by
  obtain ⟨_, d, known, _⟩ := choose_eq_some.1 chosen
  exact ⟨d, known⟩

end Dangling

namespace Snapshot

/-- The handles are the positions of the declarations that carry the marker themselves, each once and in
their order. -/
structure Answers (s : Snapshot) (marker : Marker) (handles : List Handle) : Prop where
  ascending : handles.Pairwise (· < ·)
  inside : ∀ h ∈ handles, h < s.declarations.length
  carriers : ∀ h, h ∈ handles ↔
    ∃ d, s.declarations[h]? = some d ∧ ∃ a ∈ d.annotations, a.marker = marker

theorem pairwise_positions (marker : Marker) (start : Nat) (l : List Declaration) :
    (positions marker start l).Pairwise (· < ·) := by
  induction l generalizing start with
  | nil => exact .nil
  | cons d r ih =>
    rw [positions]
    split
    · refine List.pairwise_cons.2 ⟨fun h later => ?_, ih (start + 1)⟩
      obtain ⟨i, _, rfl, _⟩ := mem_positions.1 later
      exact Nat.lt_add_right i (Nat.lt_succ_self start)
    · exact ih (start + 1)

theorem answers_scan (s : Snapshot) (marker : Marker) :
    s.Answers marker (s.scanner.scan marker) where
  ascending := pairwise_positions marker 0 s.declarations
  inside h found := by
    obtain ⟨d, at_, _⟩ := mem_scan.1 found
    exact (List.getElem?_eq_some_iff.1 at_).1
  carriers h := by
    simp only [mem_scan, Declaration.hasMarker, List.any_eq_true, beq_iff_eq]

/-- A snapshot can look up all that it finds. -/
theorem not_dangles (s : Snapshot) (h : Handle) : ¬ s.scanner.Dangles h := by
  rintro ⟨⟨m, _, found⟩, unknown⟩
  obtain ⟨d, at_, _⟩ := mem_scan.1 found
  exact Option.some_ne_none d (at_.symm.trans unknown)

theorem ne_unknownDeclaration {s : Snapshot} {α : Type} {x : Except Fault α}
    (fails : FailsAs s.scanner.Causes x) (h : Handle) : x ≠ .error (.unknownDeclaration h) :=
  fun failed => s.not_dangles h (fails _ failed).dangles

end Snapshot

/-- Over a snapshot no reading fails at an unknown declaration. Over any scanner an assembly can only do
so at a handle that one of the scans found and that cannot be looked up, and the entry point, once it is
chosen, can be looked up again. -/
theorem unknown_declarations_dangle :
    (∀ s : Snapshot, (∀ marker, s.Answers marker (s.scanner.scan marker)) ∧
      ∀ h, EntryPoint.choose s.scanner (s.scanner.scan .plugin) ≠ .error (.unknownDeclaration h) ∧
        (∀ entry, Registry.commands.merge s.scanner entry ≠ .error (.unknownDeclaration h)) ∧
        (∀ entry, Registry.permissions.merge s.scanner entry ≠ .error (.unknownDeclaration h)) ∧
        ∀ defaultVersion, assemble s.scanner defaultVersion ≠ .error (.unknownDeclaration h)) ∧
    ∀ (s : Scanner) (h : Handle),
      (∀ defaultVersion, assemble s defaultVersion = .error (.unknownDeclaration h) → s.Dangles h) ∧
      ∀ candidates, EntryPoint.choose s candidates = .ok (some h) → ∃ d, s.declaration h = some d := by
  refine ⟨fun s => ⟨s.answers_scan, fun h => ⟨?_, fun entry => ?_, fun entry => ?_, fun v => ?_⟩⟩,
    fun s h => ⟨fun v failed => ?_, fun _ => EntryPoint.known_of_choose⟩⟩
  · exact Snapshot.ne_unknownDeclaration EntryPoint.choose_fails h
  · exact Snapshot.ne_unknownDeclaration (Registry.merge_fails (by simp [Registry.both]) entry) h
  · exact Snapshot.ne_unknownDeclaration (Registry.merge_fails (by simp [Registry.both]) entry) h
  · exact Snapshot.ne_unknownDeclaration (assemble_fails s.scanner v) h
  · exact (assemble_fails s v _ failed).dangles

/-- A plugin of which a scan also finds a permission where there is no declaration. -/
def Scanner.astray : Scanner where
  scan
    | .plugin => [0]
    | .permission => [7]
    | _ => []
  declaration
    | 0 => some
        { qualifiedName := "demo.Main", kind := .classType, enclosing := .package "demo",
          annotations := [⟨.plugin, []⟩] }
    | _ => none

theorem unknown_declarations_dangle_astray :
    (assemble Scanner.astray "v0.0" = .error (.unknownDeclaration 7) ∧ Scanner.astray.Dangles 7) ∧
    EntryPoint.choose Scanner.astray [0] = .ok (some 0) ∧ ∃ d, Scanner.astray.declaration 0 = some d := by
  have failed : assemble Scanner.astray "v0.0" = .error (.unknownDeclaration 7) := rfl
  have chosen : EntryPoint.choose Scanner.astray [0] = .ok (some 0) := rfl
  exact ⟨⟨failed, (unknown_declarations_dangle.2 .astray 7).1 "v0.0" failed⟩,
    chosen, (unknown_declarations_dangle.2 .astray 0).2 [0] chosen⟩

end PluginDescriptor
