import PluginDescriptor.Proofs.Builds
import PluginDescriptor.Proofs.Writable

namespace PluginDescriptor

theorem Path.eq_of_text {p q : Path} (same : p.text = q.text) : p = q := by
  cases p
  cases q
  exact congrArg Path.mk same

namespace FileTree

open PluginDescriptor.Path (frontSegments IsFront IsName)

/-- What stays of a tree when a file is written at a path, and what may come. -/
structure Spares (t : FileTree) (p : Path) (u : FileTree) : Prop where
  working : u.workingDirectory = t.workingDirectory
  directory : ∀ x, t.isDirectoryAt x → u.isDirectoryAt x
  /-- A file stays as it is, is the one that was written, or stood in the place of the temporary
  file. -/
  file : ∀ x content, t.node? x = some (.file content) →
    u.node? x = some (.file content) ∨ u.locate? p = some x ∨
      u.locate? (p.withExtension temporaryExtension) = some x ∧ u.node? x = none
  /-- Where nothing was, there is nothing, the file that was written or a directory above it. -/
  new : ∀ x, t.node? x = none →
    u.node? x = none ∨ u.locate? p = some x ∨ u.isDirectoryAt x ∧ t.IsAbove p x

theorem Spares.refl (t : FileTree) (p : Path) : Spares t p t :=
  ⟨rfl, fun _ there => there, fun _ _ file => Or.inl file, fun _ none => Or.inl none⟩

/-- Making the directories above a file touches no file. -/
theorem spares_makeParents (t : FileTree) (p : Path) : Spares t p (t.makeParents p).1 := by
  have more := extends_makeParents t p
  refine ⟨more.working, fun x there => more.directory there, fun x content file => ?_,
    fun x nothing => ?_⟩
  · rcases more.node x with same | ⟨none, _⟩
    · exact Or.inl (same.trans file)
    · rw [none] at file
      cases file
  · rcases more.node x with same | ⟨_, made⟩
    · exact Or.inl (same.trans nothing)
    · exact Or.inr (Or.inr ⟨isDirectoryAt_iff.2 made, makeParents_new nothing made⟩)

/-- What differs from a spared tree in two places only: at that of the temporary file, where nothing
is, and at that of the file. -/
theorem Spares.change {t u v : FileTree} {p : Path} (spares : Spares t p u)
    (same : SameDirectories u v) {a : Place}
    (temporary : u.locate? (p.withExtension temporaryExtension) = some a)
    (node : ∀ x, v.node? x = u.node? x ∨ x = a ∧ v.node? x = none ∨ u.locate? p = some x) :
    Spares t p v := by
  refine ⟨same.working.trans spares.working, fun x there => ?_, fun x content file => ?_,
    fun x nothing => ?_⟩
  · rw [same.directory]
    exact spares.directory x there
  · rw [same.locate?, same.locate?]
    rcases node x with kept | ⟨rfl, gone⟩ | target
    · rw [kept]
      exact spares.file x content file
    · exact Or.inr (Or.inr ⟨temporary, gone⟩)
    · exact Or.inr (Or.inl target)
  · rw [same.locate?, same.directory]
    rcases node x with kept | ⟨_, gone⟩ | target
    · rw [kept]
      exact spares.new x nothing
    · exact Or.inl gone
    · exact Or.inr (Or.inl target)

theorem spares_replace (t : FileTree) (p : Path) (content : ByteArray) :
    Spares t p (t.replace p content).1 := by
  have made := spares_makeParents t p
  rcases replace_cases content (Prod.eta (t.makeParents p)).symm with ⟨_, same⟩ |
      ⟨a, located, other, same | ⟨b, target, free, same⟩⟩ <;> rw [same]
  · exact made
  · refine made.change (sameDirectories_put_drop other content) located fun x => ?_
    rw [node?_put_drop other]
    split
    · next here => exact Or.inr (Or.inl ⟨here, rfl⟩)
    · exact Or.inl rfl
  · have dropped := sameDirectories_put_drop other content
    have free' : ¬ (((t.makeParents p).1.put a (.file content)).drop a).isDirectoryAt b := by
      rwa [dropped.directory]
    refine made.change (dropped.trans (sameDirectories_put free' content)) located fun x => ?_
    rw [node?_put (ne_root_of_not_directory free), node?_put_drop other]
    split
    · next there => exact Or.inr (Or.inr (there ▸ target))
    · split
      · next here => exact Or.inr (Or.inl ⟨here, rfl⟩)
      · exact Or.inl rfl

/-- Two paths that lead to different places, whatever the tree. -/
def Apart (p q : Path) : Prop := ∀ (t : FileTree) (x : Place), t.locate? p = some x → t.locate? q ≠ some x

/-- A file whose path leads neither to the file that is written nor to its temporary file is read as
before. -/
theorem Spares.read? {t u : FileTree} {p q : Path} {content : ByteArray} (spares : Spares t q u)
    (apart : Apart p q) (apart' : Apart p (q.withExtension temporaryExtension))
    (read : t.read? p = some content) : u.read? p = some content := by
  obtain ⟨x, located, file⟩ := exists_of_read? read
  have located' := locate?_mono spares.working spares.directory located
  rcases spares.file x content file with kept | target | ⟨temporary, _⟩
  · exact read?_eq_some located' kept
  · exact (apart u x located' target).elim
  · exact (apart' u x located' temporary).elim

/-- A single name, without slashes. -/
structure IsSingleName (s : String) : Prop where
  isName : IsName s.toList
  whole : '/' ∉ s.toList

instance (s : String) : Decidable (IsSingleName s) :=
  decidable_of_iff ((s.toList ≠ [] ∧ s.toList ≠ ['.'] ∧ s.toList ≠ ['.', '.']) ∧ '/' ∉ s.toList)
    ⟨fun both => ⟨both.1, both.2⟩, fun single => ⟨single.isName, single.whole⟩⟩

/-- The paths of the files of one directory begin with the same text. -/
theorem exists_joinFront (root : Path) : ∃ front, IsFront front ∧
    ∀ s : String, '/' ∉ s.toList → (root.join ⟨s⟩).text.toList = front ++ s.toList := by
  have relative {s : String} (whole : '/' ∉ s.toList) : Path.isAbsolute ⟨s⟩ = false := by
    rw [Path.isAbsolute_eq, beq_eq_false_iff_ne]
    exact fun first => whole (List.mem_of_head? first)
  cases ending : root.text.toList.getLast? with
  | none =>
    refine ⟨[], Or.inl rfl, fun s whole => ?_⟩
    simp [Path.join, relative whole, ending]
  | some c =>
    by_cases slash : c = '/'
    · subst slash
      obtain ⟨f, text⟩ := List.getLast?_eq_some_iff.1 ending
      refine ⟨root.text.toList, Or.inr ⟨f, text⟩, fun s whole => ?_⟩
      simp [Path.join, relative whole, ending]
    · refine ⟨root.text.toList ++ ['/'], Or.inr ⟨_, rfl⟩, fun s whole => ?_⟩
      simp [Path.join, relative whole, ending]

theorem splitName?_single {p : Path} {front : List Char} {s : String} (ends : IsFront front)
    (single : IsSingleName s) (text : p.text.toList = front ++ s.toList) :
    p.splitName? = some (front, s.toList) := by
  obtain ⟨filled, notPoint, notPoints⟩ := single.isName
  rw [Path.splitName?_of_text text ends single.whole filled notPoint, if_neg notPoints]

/-- The path of a file leads from the directory to its name. -/
theorem locate?_single {t : FileTree} {p : Path} {front : List Char} {s : String} {x : Place}
    (ends : IsFront front) (single : IsSingleName s) (text : p.text.toList = front ++ s.toList)
    (located : t.locate? p = some x) :
    x = (t.start p).walk (frontSegments front) ++ [s] := by
  rw [eq_walk_of_locate? located, walk_segments (splitName?_single ends single text),
    String.ofList_toList]

section

variable {p q : Path} {front : List Char} {s r : String} (ends : IsFront front)
  (single : IsSingleName s) (single' : IsSingleName r) (text : p.text.toList = front ++ s.toList)
  (text' : q.text.toList = front ++ r.toList)

include single single' text text'

theorem start_single (t : FileTree) : t.start p = t.start q := by
  have inside {s : String} (single : IsSingleName s) : s.toList.head? ≠ some '/' :=
    fun first => single.whole (List.mem_of_head? first)
  have absolute := Path.isAbsolute_of_text text text' (inside single) (inside single')
  rw [FileTree.start, FileTree.start, absolute]

include ends

theorem apart_of_names (differ : s ≠ r) : Apart p q := by
  intro t x located located'
  have here := locate?_single ends single text located
  have there := locate?_single ends single' text' located'
  rw [here, start_single single single' text text' t] at there
  exact differ (List.cons.inj (List.append_cancel_left there)).1

/-- The temporary file of one file is in the place of another one only if its path is that of the
other. -/
theorem apart_temporary (differ : p ≠ q.withExtension temporaryExtension) :
    Apart p (q.withExtension temporaryExtension) := by
  intro t x located located'
  have here := locate?_single ends single text located
  have named := splitName?_single ends single' text'
  obtain ⟨_, _, _, start, _⟩ := exists_temporary named
  have whole' : '/' ∉ temporaryExtension.toList := by decide
  obtain ⟨y, temporary, whole, kind⟩ := Path.withExtension_text named whole' (by decide)
  have there := eq_walk_of_locate? located'
  rw [Path.segments_of_text temporary ends whole, start,
    ← start_single single single' text text' t, walk_append, here] at there
  rcases kind with rfl | ⟨isName, _⟩
  · -- A step up leads to a shorter row of names.
    have length := congrArg List.length there
    have up : ((t.start p).walk (frontSegments front)).walk [".."] =
        ((t.start p).walk (frontSegments front)).dropLast := rfl
    rw [show String.ofList ['.', '.'] = ".." from rfl, up] at length
    simp at length
    omega
  · have down : ((t.start p).walk (frontSegments front)).walk [String.ofList y] =
        (t.start p).walk (frontSegments front) ++ [String.ofList y] := after_of_isName isName
    rw [down] at there
    have same : s = String.ofList y := (List.cons.inj (List.append_cancel_left there)).1
    have texts : p.text = (q.withExtension temporaryExtension).text := by
      rw [← String.toList_inj, text, temporary, same, String.toList_ofList]
    exact differ (Path.eq_of_text texts)

end

end FileTree

open FileTree (Spares Apart IsSingleName)

/-- The descriptor file is neither that of other options nor their temporary file. -/
structure Options.IsClearOf (o o' : Options) : Prop where
  file : Apart o.artifactPath o'.artifactPath
  temporary : Apart o.artifactPath (o'.artifactPath.withExtension temporaryExtension)

theorem Options.isClearOf_of_names {o o' : Options} (root : o.outputRoot = o'.outputRoot)
    (single : IsSingleName o.artifactName) (single' : IsSingleName o'.artifactName)
    (differ : o.artifactName ≠ o'.artifactName)
    (aside : o.artifactPath ≠ o'.artifactPath.withExtension temporaryExtension) :
    o.IsClearOf o' := by
  obtain ⟨front, ends, text⟩ := FileTree.exists_joinFront o.outputRoot
  have path : o.artifactPath.text.toList = front ++ o.artifactName.toList := text _ single.whole
  have path' : o'.artifactPath.text.toList = front ++ o'.artifactName.toList := by
    rw [artifactPath, ← root]
    exact text _ single'.whole
  exact ⟨FileTree.apart_of_names ends single single' path path' differ,
    FileTree.apart_temporary ends single single' path path' aside⟩

namespace Run

variable {o o' : Options} {t : FileTree}

theorem spares_result (o : Options) (r : Run) (t : FileTree) :
    Spares t o.artifactPath (r.result o t).files := by
  rcases result_cases o r t with ⟨_, _, files⟩ | ⟨d, files, done, _, run, after, _⟩
  · rw [files]
    exact Spares.refl t _
  · have spares := FileTree.spares_replace t o.artifactPath (r.stamp.render d).toUTF8
    rwa [run, ← after] at spares

/-- Builds with other options leave a descriptor file that is clear of theirs. -/
theorem read?_filesAfter (clear : o.IsClearOf o') {content : ByteArray}
    (read : t.read? o.artifactPath = some content) (runs : List Run) :
    (filesAfter o' t runs).read? o.artifactPath = some content := by
  induction runs generalizing t with
  | nil => exact read
  | cons r runs ih => exact ih ((spares_result o' r t).read? clear.file clear.temporary read)

/-- Writing a descriptor file leaves every other file alone but for the one in the place of the
temporary file, and makes nothing but the descriptor file and directories above it; what was written
is read. Hence builds of one descriptor file leave another one that is clear of it alone, as those
under two names in one directory are unless one name is that of the temporary file of the other. -/
theorem write_spares :
    (∀ (s : Stamp) (d : Document) (t : FileTree) (p : Path), Spares t p (s.write d t p).1 ∧
        ((s.write d t p).2 = .ok () → (s.write d t p).1.read? p = some (s.render d).toUTF8)) ∧
      (∀ (o : Options) (r : Run) (t : FileTree), Spares t o.artifactPath (r.result o t).files) ∧
      (∀ o o' : Options, o.IsClearOf o' → ∀ (t : FileTree) (content : ByteArray),
        t.read? o.artifactPath = some content →
        ∀ runs : List Run, (filesAfter o' t runs).read? o.artifactPath = some content) ∧
      ∀ o o' : Options, o.outputRoot = o'.outputRoot →
        IsSingleName o.artifactName → IsSingleName o'.artifactName →
        o.artifactName ≠ o'.artifactName →
        o.artifactPath ≠ o'.artifactPath.withExtension temporaryExtension → o.IsClearOf o' := by
  refine ⟨fun s d t p => ?_, spares_result, fun o o' clear t content => read?_filesAfter clear,
    fun o o' => Options.isClearOf_of_names⟩
  have spares := FileTree.spares_replace t p (s.render d).toUTF8
  unfold Stamp.write
  split
  · next replaced =>
    rw [replaced] at spares
    exact ⟨spares, fun _ => FileTree.read?_of_replace replaced⟩
  · next failed =>
    rw [failed] at spares
    exact ⟨spares, nofun⟩

/-- Options under which the temporary file has the name that it has by default. -/
def shared : Options := { artifactName := "plugin.json" }

/-- A tree with a descriptor file under the default name. -/
def settled : FileTree where
  nodes := .ofList [(["plugin.yml"], .file "old".toUTF8)]

theorem write_spares_shared :
    shared.artifactPath.withExtension temporaryExtension =
        ({} : Options).artifactPath.withExtension temporaryExtension ∧
      (demo.result shared settled).outcome = .ok (.written shared.artifactPath) ∧
      (filesAfter shared settled [demo]).read? ({} : Options).artifactPath =
        some "old".toUTF8 := by
  have read : settled.read? ({} : Options).artifactPath = some "old".toUTF8 := rfl
  have clear : ({} : Options).IsClearOf shared :=
    write_spares.2.2.2 {} shared rfl (by decide) (by decide) (by decide) (by decide)
  exact ⟨by decide +kernel, rfl, write_spares.2.2.1 {} shared clear settled _ read [demo]⟩

/-- Options whose descriptor file has the name of the temporary file of another one. -/
def other : Options := { artifactName := "plugin.yml.tmp" }

/-- A tree with a file in the place of the temporary file. -/
def draft : FileTree where
  nodes := .ofList [(["plugin.yml.tmp"], .file "keep".toUTF8)]

/-- A build takes away what was in the place of its temporary file, be it the descriptor file of
another build. -/
theorem temporary_not_spared_draft :
    draft.WellFormed ∧ draft.read? other.artifactPath = some "keep".toUTF8 ∧
      other.artifactPath ≠ ({} : Options).artifactPath ∧
      (demo.result {} draft).outcome = .ok (.written ({} : Options).artifactPath) ∧
      (demo.result {} draft).files.read? other.artifactPath = none :=
  ⟨FileTree.wellFormed_of_entries (by decide) (by decide), rfl, by decide, rfl, rfl⟩

end Run
end PluginDescriptor
