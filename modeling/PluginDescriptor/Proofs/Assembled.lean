import PluginDescriptor.Proofs.Acceptance

namespace PluginDescriptor

theorem Document.fill_ok (d : Document) (g : Option (String × Value)) (rest : List Part) :
    d.fill (.ok g :: rest) = Document.fill (d.insertAll g.toList) rest := by
  cases g <;> rfl

/-- A descriptor is filled if every part gives something or nothing, and then it holds what they
give. -/
theorem Document.fill_eq_done {d doc : Document} {parts : List Part} :
    d.fill parts = (doc, none) ↔
      ∃ given, parts.mapM id = .ok given ∧ doc = d.insertAll (given.flatMap Option.toList) := by
  induction parts generalizing d with
  | nil =>
    simp only [fill, Prod.mk.injEq, and_true, List.mapM_nil, pure_eq_ok, exists_eq_left',
      List.flatMap_nil, OrderedMap.insertAll_nil]
    exact eq_comm
  | cons p rest ih =>
    simp only [List.mapM_cons, bind_eq_ok, pure_eq_ok]
    cases p with
    | error e => simp [fill]
    | ok g =>
      rw [fill_ok, ih]
      simp only [← OrderedMap.insertAll_append, ← List.flatMap_cons]
      constructor
      · rintro ⟨given, run, rfl⟩
        exact ⟨g :: given, ⟨g, rfl, given, run, rfl⟩, rfl⟩
      · rintro ⟨_, ⟨_, ⟨⟩, given, run, rfl⟩, rfl⟩
        exact ⟨given, run, rfl⟩

/-- What the parts of a descriptor give if all of them can be read: the metadata, both registries, and
the version of the plugin interface. -/
theorem Source.parts_eq_ok {s : Source} {given : List (Option (String × Value))} :
    s.parts.mapM id = .ok given ↔
      ∃ metadata commands permissions version, s.metadata.mapM id = .ok metadata ∧
        Registry.commands.merge s.scanner s.entry = .ok commands ∧
        Registry.permissions.merge s.scanner s.entry = .ok permissions ∧
        s.apiVersionPart = .ok version ∧
        given = metadata ++ [some ("commands", .ofMap commands),
          some ("permissions", .ofMap permissions), version] := by
  have part (r : Registry) (key : String) (g : Option (String × Value)) :
      r.part key s.scanner s.entry = .ok g ↔
        ∃ m, r.merge s.scanner s.entry = .ok m ∧ some (key, .ofMap m) = g := by
    simp only [Registry.part, bind_eq_ok, pure_eq_ok]
  simp only [Source.parts, mapM_append_eq_ok, List.mapM_cons, List.mapM_nil, bind_eq_ok, pure_eq_ok,
    id_eq, part]
  constructor
  · rintro ⟨metadata, _, read, ⟨_, ⟨commands, first, rfl⟩, _, ⟨_, ⟨permissions, second, rfl⟩, _,
      ⟨version, third, _, rfl, rfl⟩, rfl⟩, rfl⟩, rfl⟩
    exact ⟨metadata, commands, permissions, version, read, first, second, third, rfl⟩
  · rintro ⟨metadata, commands, permissions, version, read, first, second, third, rfl⟩
    exact ⟨metadata, _, read, ⟨_, ⟨commands, first, rfl⟩, _, ⟨_, ⟨permissions, second, rfl⟩, _,
      ⟨version, third, _, rfl, rfl⟩, rfl⟩, rfl⟩, rfl⟩

/-- A descriptor that was assembled holds what the parts of its entry point give. -/
theorem assemble_eq_given {s : Scanner} {defaultVersion : String} {doc : Document} :
    assemble s defaultVersion = .ok (some doc) ↔
      ∃ h d, EntryPoint.choose s (s.scan .plugin) = .ok (some h) ∧ s.declaration h = some d ∧
        ∃ given, (Source.parts ⟨s, h, d, defaultVersion⟩).mapM id = .ok given ∧
          doc = .ofList (given.flatMap Option.toList) := by
  simp only [assemble_eq_some, Document.fill_eq_done]
  rfl

end PluginDescriptor
