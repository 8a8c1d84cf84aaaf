import PluginDescriptor.Build
import PluginDescriptor.Proofs.FileTree
import PluginDescriptor.Proofs.Path

namespace PluginDescriptor.FileTree

open PluginDescriptor.Path (step? frontSegments IsName)

theorem walk_append (at_ : Place) (l m : List String) :
    at_.walk (l ++ m) = (at_.walk l).walk m := List.foldl_append

theorem walk_blank {at_ : Place} {l : List String} (blank : ∀ s ∈ l, step? s = none) :
    at_.walk l = at_ := by
  induction l with
  | nil => rfl
  | cons s l ih =>
    have stay : at_.after s = at_ := by
      rcases at_.after_cases s with ⟨_, stay⟩ | ⟨step, _⟩ | ⟨step, _⟩
      · exact stay
      · rw [blank s (List.mem_cons_self ..)] at step
        cases step
      · rw [blank s (List.mem_cons_self ..)] at step
        cases step
    have rest : at_.walk (s :: l) = (at_.after s).walk l := rfl
    rw [rest, stay]
    exact ih fun r member => blank r (List.mem_cons_of_mem _ member)

theorem after_of_isName {at_ : Place} {cs : List Char} (isName : IsName cs) :
    at_.after (String.ofList cs) = at_ ++ [String.ofList cs] := by
  have step := Path.step?_of_isName isName
  rcases at_.after_cases (String.ofList cs) with ⟨step', _⟩ | ⟨step', _⟩ | ⟨_, down⟩
  · rw [step] at step'
    cases step'
  · rw [step] at step'
    cases step'
  · exact down

theorem makeAlong_steps (t : FileTree) (p : Path) :
    t.makeAlong (t.start p) p.steps = t.makeAlong (t.start p) (p.segments.filterMap step?) := by
  obtain ⟨first, kind, steps⟩ := p.steps_eq
  rw [steps]
  rcases kind with rfl | ⟨rfl, _⟩ | ⟨rfl, absolute⟩
  · rfl
  · rw [List.singleton_append, makeAlong]
  · have root : t.start p = [] := if_pos absolute
    rw [root, List.singleton_append, makeAlong]

theorem isUsable_of_within {p q : Path} (within : q.text.toList <+: p.text.toList)
    (filled : q.text ≠ "") (usable : isUsable p) : isUsable q := by
  obtain ⟨r, text⟩ := within
  have parts : p.text = q.text ++ String.ofList r := by
    rw [← String.toList_inj, String.toList_append, String.toList_ofList, text]
  simp only [isUsable, parts, String.utf8ByteSize_append, Bool.and_eq_true, decide_eq_true_eq,
    String.toList_append, Bool.not_eq_true', bne_iff_ne] at usable ⊢
  obtain ⟨⟨_, short⟩, clean⟩ := usable
  refine ⟨⟨filled, by omega⟩, ?_⟩
  rw [Bool.eq_false_iff] at clean ⊢
  intro null
  refine clean ?_
  rw [List.contains_iff_mem] at null ⊢
  exact List.mem_append_left _ null

section

variable {t : FileTree} {p : Path} {front name : List Char}

/-- The directories that are made are those before the name. If their path cannot be used, no path
in the last of them can. -/
theorem makeParents_cases (named : p.splitName? = some (front, name)) :
    t.makeParents p = t.makeAlong (t.start p) ((frontSegments front).filterMap step?) ∨
      t.makeParents p = (t, false) ∧ ∀ q : Path, front <+: q.text.toList → isUsable q = false := by
  obtain ⟨parent, shape, within, steps, absolute⟩ := Path.parent?_of_named named
  simp only [makeParents, shape, makeDirectories]
  split
  · next empty =>
    left
    have none : parent.segments.filterMap step? = [] := by rw [Path.segments, empty]; rfl
    rw [← steps, none, makeAlong]
  · next filled =>
    split
    · left
      have start : t.start parent = t.start p := by
        rw [FileTree.start, FileTree.start, absolute filled]
      rw [makeAlong_steps, start, steps]
    · next unusable =>
      refine Or.inr ⟨rfl, fun q part => ?_⟩
      rw [Bool.eq_false_iff]
      exact fun usable => unusable (isUsable_of_within (within.trans part) filled usable)

/-- The temporary file stands beside the file, unless its path ends in a step up. -/
theorem exists_temporary (named : p.splitName? = some (front, name)) :
    ∃ y, (p.withExtension temporaryExtension).segments = frontSegments front ++ [y] ∧
      front <+: (p.withExtension temporaryExtension).text.toList ∧
      (∀ t : FileTree, t.start (p.withExtension temporaryExtension) = t.start p) ∧
      (y = ".." ∨ (∀ at_ : Place, at_.after y = at_ ++ [y]) ∧ y ≠ String.ofList name) := by
  have whole' : '/' ∉ temporaryExtension.toList := by decide
  obtain ⟨y, text, whole, kind⟩ := Path.withExtension_text named whole' (by decide)
  obtain ⟨tail, ends⟩ := Path.splitName?_eq_some named
  have filled : y ≠ [] := by
    rcases kind with rfl | ⟨isName, _⟩
    · exact List.cons_ne_nil _ _
    · exact isName.1
  have head {cs : List Char} (r : List Char) (some : cs ≠ []) (inside : '/' ∉ cs) :
      (cs ++ r).head? ≠ Option.some '/' := by
    cases cs with
    | nil => exact (some rfl).elim
    | cons c cs =>
      intro first
      cases first
      exact inside (List.mem_cons_self ..)
  refine ⟨String.ofList y, Path.segments_of_text text ends.front whole, ?_, fun t => ?_, ?_⟩
  · rw [text]
    exact List.prefix_append ..
  · have same := Path.isAbsolute_of_text (q := p) (y := name ++ tail) text
      (by rw [ends.text, List.append_assoc]) (by simpa using head [] filled whole)
      (head tail ends.isName.1 ends.whole)
    rw [FileTree.start, FileTree.start, same]
  · rcases kind with rfl | ⟨isName, other⟩
    · exact Or.inl rfl
    · refine Or.inr ⟨fun _ => after_of_isName isName, fun same => other ?_⟩
      simpa only [String.toList_ofList] using congrArg String.toList same

theorem walk_segments (named : p.splitName? = some (front, name)) (at_ : Place) :
    at_.walk p.segments = at_.walk (frontSegments front) ++ [String.ofList name] := by
  obtain ⟨tail, ends⟩ := Path.splitName?_eq_some named
  obtain ⟨blanks, segments, blank⟩ := ends.segments
  rw [segments, List.append_cons, walk_append, walk_blank blank, walk_append]
  exact after_of_isName ends.isName

/-- Without the directories above a file, its temporary file has no place. -/
theorem makeParents_blocked (wf : t.WellFormed) (named : p.splitName? = some (front, name))
    (failed : (t.makeParents p).2 = false) :
    (t.makeParents p).1.locate? (p.withExtension temporaryExtension) = none := by
  obtain ⟨y, segments, part, start, _⟩ := exists_temporary named
  rcases makeParents_cases (t := t) named with same | ⟨same, unusable⟩ <;> rw [same] at failed ⊢
  · obtain ⟨_, more, blocked⟩ := makeAlong_made wf (wf.start p) (frontSegments front)
    rw [locate?, start, start_eq more.working, segments, blocked failed y, ite_self]
  · rw [locate?, unusable _ part]
    rfl

/-- The place of the temporary file, where no directory stands, is beside that of the file. -/
theorem locate?_temporary (wf : t.WellFormed) (named : p.splitName? = some (front, name)) {a : Place}
    (located : t.locate? (p.withExtension temporaryExtension) = some a)
    (other : ¬ t.isDirectoryAt a) :
    t.isDirectoryAt a.dropLast ∧ ∀ below, (t.start p).walk p.segments ++ below ≠ a := by
  obtain ⟨y, segments, _, start, kind⟩ := exists_temporary named
  have leads := follow_of_locate? located
  rw [start, segments] at leads
  refine ⟨wf.follow_parent (wf.start p) leads, fun below => ?_⟩
  have way := follow_eq_walk leads
  rw [walk_append] at way
  rcases kind with rfl | ⟨down, differ⟩
  · -- A step up leads from a directory to a directory, which no file replaces.
    rw [follow_append] at leads
    obtain ⟨d, _, last⟩ := Option.bind_eq_some_iff.1 leads
    obtain ⟨directory, _, up⟩ := follow_cons_eq_some.1 last
    cases up
    exact (other (wf.directory directory)).elim
  · have beside : a = (t.start p).walk (frontSegments front) ++ [y] := way.trans (down _)
    rw [walk_segments named, beside, List.append_assoc]
    intro same
    have names := List.append_cancel_left same
    exact differ (List.cons.inj names).1.symm

theorem write?_eq_some {a : Place} (located : t.locate? p = some a) (other : ¬ t.isDirectoryAt a)
    (content : ByteArray) : t.write? p content = some (t.put a (.file content)) := by
  rw [write?, located]
  exact if_neg other

theorem write?_eq_none (blocked : ∀ a, t.locate? p = some a → t.isDirectoryAt a)
    (content : ByteArray) : t.write? p content = none := by
  unfold write?
  split
  · rfl
  · next a located => exact if_pos (blocked a located)

theorem discard_eq_self (blocked : ∀ a, t.locate? p = some a → t.isDirectoryAt a) :
    t.discard p = t := by
  unfold discard remove?
  split
  · rfl
  · next a located =>
    rw [isDirectoryAt_iff.1 (blocked a located)]
    rfl

theorem discard_eq_drop {a : Place} {content : ByteArray} (located : t.locate? p = some a)
    (file : t.node? a = some (.file content)) : t.discard p = t.drop a := by
  simp only [discard, remove?, located, file, Option.getD_some]

theorem rename?_cases {q : Path} {a : Place} {content : ByteArray} (located : t.locate? p = some a)
    (file : t.node? a = some (.file content)) :
    t.rename? p q = none ∨ ∃ b, t.locate? q = some b ∧ ¬ t.isDirectoryAt b ∧
      t.rename? p q = some ((t.drop a).put b (.file content)) := by
  unfold rename?
  rw [located]
  cases target : t.locate? q with
  | none => exact Or.inl rfl
  | some b =>
    simp only [file]
    split
    · exact Or.inl rfl
    · next free => exact Or.inr ⟨b, rfl, free, rfl⟩

/-- The ways in which replacing a file can end: without a temporary file, with one that could not be
moved, and done. -/
theorem replace_cases {made : FileTree} {ok : Bool} (content : ByteArray)
    (parents : t.makeParents p = (made, ok)) :
    ((ok = false ∨ ∀ a, made.locate? (p.withExtension temporaryExtension) = some a →
          made.isDirectoryAt a) ∧
        t.replace p content = (made, false)) ∨
      ∃ a, made.locate? (p.withExtension temporaryExtension) = some a ∧ ¬ made.isDirectoryAt a ∧
        (t.replace p content = ((made.put a (.file content)).drop a, false) ∨
          ∃ b, made.locate? p = some b ∧ ¬ made.isDirectoryAt b ∧
            t.replace p content =
              (((made.put a (.file content)).drop a).put b (.file content), true)) := by
  cases ok with
  | false => exact Or.inl ⟨Or.inl rfl, by simp only [replace, parents]⟩
  | true =>
    simp only [replace, parents]
    by_cases possible :
        ∃ a, made.locate? (p.withExtension temporaryExtension) = some a ∧ ¬ made.isDirectoryAt a
    · obtain ⟨a, located, other⟩ := possible
      have same := sameDirectories_put other content
      have node : (made.put a (.file content)).node? a = some (.file content) := by
        rw [node?_put (ne_root_of_not_directory other), if_pos rfl]
      have located' : (made.put a (.file content)).locate? (p.withExtension temporaryExtension) =
          some a := (same.locate? _).trans located
      refine Or.inr ⟨a, located, other, ?_⟩
      simp only [write?_eq_some located other]
      rcases rename?_cases (q := p) located' node with failed | ⟨b, target, free, moved⟩
      · left
        simp only [failed, discard_eq_drop located' node]
      · right
        rw [same.locate?] at target
        rw [same.directory] at free
        exact ⟨b, target, free, by simp only [moved]⟩
    · have blocked (a : Place)
          (located : made.locate? (p.withExtension temporaryExtension) = some a) :
          made.isDirectoryAt a := by
        by_contra other
        exact possible ⟨a, located, other⟩
      refine Or.inl ⟨Or.inr blocked, ?_⟩
      simp only [write?_eq_none blocked, discard_eq_self blocked]

theorem read?_eq_none (nowhere : ∀ a, t.locate? p = some a → ∀ content, t.node? a ≠ some (.file content)) :
    t.read? p = none := by
  unfold read? lookup?
  split
  · next content found =>
    obtain ⟨a, located, file⟩ := Option.bind_eq_some_iff.1 found
    exact (nowhere a located content file).elim
  · rfl

theorem read?_eq_some {a : Place} {content : ByteArray} (located : t.locate? p = some a)
    (file : t.node? a = some (.file content)) : t.read? p = some content := by
  have found : t.lookup? p = some (.file content) := by rw [lookup?, located]; exact file
  rw [read?, found]

theorem sameDirectories_put_drop {a : Place} (other : ¬ t.isDirectoryAt a) (content : ByteArray) :
    SameDirectories t ((t.put a (.file content)).drop a) := by
  have same := sameDirectories_put other content
  have other' : ¬ (t.put a (.file content)).isDirectoryAt a := by rwa [same.directory]
  exact same.trans (sameDirectories_drop other')

theorem node?_put_drop {a : Place} (other : ¬ t.isDirectoryAt a) (content : ByteArray) (x : Place) :
    ((t.put a (.file content)).drop a).node? x = if x = a then none else t.node? x := by
  rw [node?_drop (ne_root_of_not_directory other)]
  split
  · rfl
  · next differs => rw [node?_put (ne_root_of_not_directory other), if_neg differs]

/-- A file that is written and taken away again leaves everything else as it was. -/
theorem put_drop {a : Place} (wf : t.WellFormed) (other : ¬ t.isDirectoryAt a)
    (parent : t.isDirectoryAt a.dropLast) (content : ByteArray) :
    ((t.put a (.file content)).drop a).WellFormed ∧
      SameDirectories t ((t.put a (.file content)).drop a) ∧
      ∀ x, ((t.put a (.file content)).drop a).node? x = if x = a then none else t.node? x := by
  have other' : ¬ (t.put a (.file content)).isDirectoryAt a := by
    rwa [(sameDirectories_put other content).directory]
  exact ⟨(wf.put other parent content).drop other', sameDirectories_put_drop other content,
    node?_put_drop other content⟩

/-- What replacing a file guarantees of the tree that it leaves. -/
structure Replaced (t : FileTree) (p : Path) (content : ByteArray) (result : FileTree × Bool) :
    Prop where
  wellFormed : result.1.WellFormed
  working : result.1.workingDirectory = t.workingDirectory
  keeps : ∀ x, t.isDirectoryAt x → result.1.isDirectoryAt x
  clean : result.1.read? (p.withExtension temporaryExtension) = none
  done : result.2 = true → result.1.read? p = some content
  failed : result.2 = false → t.Climbs (t.start p) p.segments →
    ∀ below, result.1.held p below = t.held p below

/-- A tree in which the directories above a file have been made. -/
structure Prepared (t : FileTree) (p : Path) (made : FileTree) : Prop where
  wellFormed : made.WellFormed
  more : Extends t made
  aside : t.Climbs (t.start p) p.segments → ∀ below,
    made.node? ((t.start p).walk p.segments ++ below) =
      t.node? ((t.start p).walk p.segments ++ below)

theorem makeParents_prepared (wf : t.WellFormed) (named : p.splitName? = some (front, name)) :
    Prepared t p (t.makeParents p).1 := by
  rcases makeParents_cases (t := t) named with same | ⟨same, _⟩ <;> rw [same]
  · obtain ⟨wf', more, _⟩ := makeAlong_made wf (wf.start p) (frontSegments front)
    refine ⟨wf', more, fun climbs below => ?_⟩
    obtain ⟨tail, ends⟩ := Path.splitName?_eq_some named
    obtain ⟨blanks, segments, _⟩ := ends.segments
    rw [segments] at climbs
    refine makeAlong_node? wf (wf.start p) climbs.of_append fun within => ?_
    have short := within.length_le
    rw [walk_segments named] at short
    simp only [List.length_append, List.length_singleton] at short
    omega
  · exact ⟨wf, Extends.refl t, fun _ _ => rfl⟩

namespace Prepared

variable {made : FileTree}

theorem start (prepared : Prepared t p made) : made.start p = t.start p :=
  start_eq prepared.more.working p

/-- Nothing was written. -/
theorem unwritten (wf : t.WellFormed) (prepared : Prepared t p made)
    (blocked : ∀ a, made.locate? (p.withExtension temporaryExtension) = some a →
      made.isDirectoryAt a) (content : ByteArray) : Replaced t p content (made, false) := by
  have keeps (x : Place) (there : t.isDirectoryAt x) : made.isDirectoryAt x :=
    prepared.more.directory there
  refine ⟨prepared.wellFormed, prepared.more.working, keeps, ?_, nofun, fun _ climbs =>
    held_eq wf prepared.more.working keeps climbs (prepared.aside climbs)⟩
  refine read?_eq_none fun a located content file => ?_
  rw [isDirectoryAt_iff.1 (blocked a located)] at file
  cases file

variable {a : Place}

/-- The temporary file was written and removed again. -/
theorem unmoved (wf : t.WellFormed) (named : p.splitName? = some (front, name))
    (prepared : Prepared t p made)
    (located : made.locate? (p.withExtension temporaryExtension) = some a)
    (other : ¬ made.isDirectoryAt a) (content : ByteArray) :
    Replaced t p content ((made.put a (.file content)).drop a, false) := by
  obtain ⟨parent, beside⟩ := locate?_temporary prepared.wellFormed named located other
  obtain ⟨wf', same, node⟩ := put_drop prepared.wellFormed other parent content
  have working := same.working.trans prepared.more.working
  have keeps (x : Place) (there : t.isDirectoryAt x) :
      ((made.put a (.file content)).drop a).isDirectoryAt x := by
    rw [same.directory]
    exact prepared.more.directory there
  refine ⟨wf', working, keeps, ?_, nofun, fun _ climbs => held_eq wf working keeps climbs ?_⟩
  · refine read?_eq_none fun a' located' content' file => ?_
    rw [same.locate?, located, Option.some.injEq] at located'
    rw [← located', node, if_pos rfl] at file
    cases file
  · intro below
    rw [node, if_neg (prepared.start ▸ beside below)]
    exact prepared.aside climbs below

/-- The temporary file was moved into the place of the file. -/
theorem moved (named : p.splitName? = some (front, name)) (prepared : Prepared t p made)
    (located : made.locate? (p.withExtension temporaryExtension) = some a)
    (other : ¬ made.isDirectoryAt a) {b : Place} (target : made.locate? p = some b)
    (free : ¬ made.isDirectoryAt b) (content : ByteArray) :
    Replaced t p content
      (((made.put a (.file content)).drop a).put b (.file content), true) := by
  obtain ⟨parent, beside⟩ := locate?_temporary prepared.wellFormed named located other
  obtain ⟨wf', same, node⟩ := put_drop prepared.wellFormed other parent content
  have leads := follow_of_locate? target
  have apart : a ≠ b := by
    intro same
    exact beside [] (by rw [List.append_nil, ← follow_eq_walk leads, same])
  have free' : ¬ ((made.put a (.file content)).drop a).isDirectoryAt b := by
    rwa [same.directory]
  have parent' : ((made.put a (.file content)).drop a).isDirectoryAt b.dropLast := by
    rw [same.directory]
    exact prepared.wellFormed.follow_parent (prepared.wellFormed.start p) leads
  have same' := same.trans (sameDirectories_put free' content)
  have below := ne_root_of_not_directory free'
  refine ⟨wf'.put free' parent' content, same'.working.trans prepared.more.working,
    fun x there => (same'.directory x).trans (prepared.more.directory there), ?_, fun _ => ?_, nofun⟩
  · refine read?_eq_none fun a' located' content' file => ?_
    rw [same'.locate?, located, Option.some.injEq] at located'
    rw [← located', node?_put below, if_neg apart, node, if_pos rfl] at file
    cases file
  · refine read?_eq_some ((same'.locate? p).trans target) ?_
    rw [node?_put below, if_pos rfl]

end Prepared

theorem replace_replaced (wf : t.WellFormed) (named : p.splitName?.isSome) (content : ByteArray) :
    Replaced t p content (t.replace p content) := by
  obtain ⟨⟨front, name⟩, named⟩ := Option.isSome_iff_exists.1 named
  have prepared := makeParents_prepared wf named
  rcases replace_cases content (Prod.eta (t.makeParents p)).symm with ⟨unwritten, same⟩ |
      ⟨a, located, other, same | ⟨b, target, free, same⟩⟩ <;> rw [same]
  · refine prepared.unwritten wf (fun a located => ?_) content
    rcases unwritten with failed | blocked
    · rw [makeParents_blocked wf named failed] at located
      cases located
    · exact blocked a located
  · exact prepared.unmoved wf named located other content
  · exact prepared.moved named located other target free content

end

end PluginDescriptor.FileTree
