import PluginDescriptor.FileTree
import PluginDescriptor.Proofs.OrderedMap

namespace PluginDescriptor

/-- The place after one more text between slashes. -/
def Place.after (at_ : Place) (s : String) : Place :=
  if s = "" ∨ s = "." then at_ else if s = ".." then at_.dropLast else at_ ++ [s]

theorem Place.after_cases (at_ : Place) (s : String) :
    (Path.step? s = none ∧ at_.after s = at_) ∨
      (Path.step? s = some .up ∧ at_.after s = at_.dropLast) ∨
      (Path.step? s = some (.name s) ∧ at_.after s = at_ ++ [s]) := by
  unfold Path.step? Place.after
  split
  · exact Or.inl ⟨rfl, rfl⟩
  · split
    · exact Or.inr (Or.inl ⟨rfl, rfl⟩)
    · exact Or.inr (Or.inr ⟨rfl, rfl⟩)

theorem Path.step?_eq_up {s : String} : step? s = some .up ↔ s = ".." := by
  unfold step?
  split
  · next blank => rcases blank with rfl | rfl <;> simp
  · split
    · next up => simp [up]
    · next other => simp [other]

/-- The place that texts between slashes name, whatever is there. -/
def Place.walk (at_ : Place) (l : List String) : Place := l.foldl Place.after at_

/-- The place after a step. -/
def Place.step (at_ : Place) : PathStep → Place
  | .root => []
  | .here => at_
  | .up => at_.dropLast
  | .name s => at_ ++ [s]

/-- Texts that stand for the same steps name the same place. -/
theorem Place.walk_eq_foldl (at_ : Place) (l : List String) :
    at_.walk l = (l.filterMap Path.step?).foldl Place.step at_ := by
  induction l generalizing at_ with
  | nil => rfl
  | cons s l ih =>
    have rest : at_.walk (s :: l) = (at_.after s).walk l := rfl
    rw [rest, ih, List.filterMap_cons]
    rcases at_.after_cases s with ⟨step, place⟩ | ⟨step, place⟩ | ⟨step, place⟩ <;> rw [step, place] <;> rfl

namespace FileTree

/-- Everything stands in a directory, and so does the program. -/
structure WellFormed (t : FileTree) : Prop where
  parent : ∀ x, (t.node? x).isSome → t.isDirectoryAt x.dropLast
  working : t.isDirectoryAt t.workingDirectory

theorem isDirectoryAt_iff {t : FileTree} {x : Place} :
    t.isDirectoryAt x ↔ t.node? x = some .directory := by
  simp [isDirectoryAt]

theorem WellFormed.directory {t : FileTree} (wf : t.WellFormed) {x : Place}
    (there : t.isDirectoryAt x) : t.isDirectoryAt x.dropLast := by
  refine wf.parent x ?_
  rw [isDirectoryAt_iff.1 there]
  rfl

/-- A directory stands above everything that is there. -/
theorem WellFormed.above {t : FileTree} (wf : t.WellFormed) {x y : Place} (filled : y ≠ [])
    (there : (t.node? (x ++ y)).isSome) : t.isDirectoryAt x := by
  induction y using List.reverseRecOn with
  | nil => exact (filled rfl).elim
  | append_singleton y s ih =>
    have parent := wf.parent _ there
    rw [← List.append_assoc, List.dropLast_concat] at parent
    cases y with
    | nil => simpa using parent
    | cons r y =>
      refine ih (by simp) ?_
      rw [isDirectoryAt_iff.1 parent]
      rfl

/-- Whether a tree is well-formed can be told from its entries. -/
theorem wellFormed_of_entries {t : FileTree}
    (parent : ∀ e ∈ t.nodes.entries, t.isDirectoryAt e.1.dropLast)
    (working : t.isDirectoryAt t.workingDirectory) : t.WellFormed := by
  refine ⟨fun x there => ?_, working⟩
  unfold node? at there
  split at there
  · next root =>
    rw [root]
    exact isDirectoryAt_iff.2 rfl
  · by_cases known : x ∈ t.nodes.keys
    · obtain ⟨e, member, rfl⟩ := List.mem_map.1 known
      exact parent e member
    · rw [(t.nodes.get?_eq_none_iff x).2 known] at there
      cases there

theorem node?_put {t : FileTree} {a : Place} (below : a ≠ []) (n : FileNode) (x : Place) :
    (t.put a n).node? x = if x = a then some n else t.node? x := by
  unfold node? put
  by_cases root : x = []
  · rw [if_pos root, if_pos root, if_neg]
    rintro rfl
    exact below root
  · rw [if_neg root, if_neg root, OrderedMap.get?_insert]

theorem node?_drop {t : FileTree} {a : Place} (below : a ≠ []) (x : Place) :
    (t.drop a).node? x = if x = a then none else t.node? x := by
  unfold node? drop
  by_cases root : x = []
  · rw [if_pos root, if_pos root, if_neg]
    rintro rfl
    exact below root
  · rw [if_neg root, if_neg root, OrderedMap.get?_erase]

theorem ne_root_of_not_directory {t : FileTree} {a : Place} (other : ¬ t.isDirectoryAt a) :
    a ≠ [] := by
  rintro rfl
  exact other (isDirectoryAt_iff.2 rfl)

/-- Whether a text between slashes is short enough to name something. -/
def fits (s : String) : Bool := s.utf8ByteSize ≤ longestName

theorem follow_cons (t : FileTree) (at_ : Place) (s : String) (r : List String) :
    t.follow at_ (s :: r) =
      if t.isDirectoryAt at_ ∧ fits s then t.follow (at_.after s) r else none := by
  rw [follow]
  by_cases there : t.isDirectoryAt at_ = true
  · by_cases blank : s = "" ∨ s = "."
    · have short : fits s = true := by rcases blank with rfl | rfl <;> decide
      simp [there, short, blank, Place.after]
    · by_cases up : s = ".."
      · have short : fits ".." = true := by decide
        simp [there, short, Place.after, up]
      · by_cases long : s.utf8ByteSize > longestName
        · have unfit : fits s = false := by simpa [fits] using long
          simp [there, blank, up, long, unfit]
        · have short : fits s = true := by simpa [fits] using long
          simp [there, blank, up, long, short, Place.after]
  · simp [there]

theorem follow_cons_eq_some {t : FileTree} {at_ q : Place} {s : String} {r : List String} :
    t.follow at_ (s :: r) = some q ↔
      t.isDirectoryAt at_ ∧ fits s ∧ t.follow (at_.after s) r = some q := by
  rw [follow_cons]
  split
  · next both => simp [both]
  · next neither => simp only [reduceCtorEq, false_iff, not_and]; exact fun a b _ => neither ⟨a, b⟩

theorem follow_append (t : FileTree) (at_ : Place) (l r : List String) :
    t.follow at_ (l ++ r) = (t.follow at_ l).bind (t.follow · r) := by
  induction l generalizing at_ with
  | nil => rfl
  | cons s l ih =>
    rw [List.cons_append, follow_cons, follow_cons]
    split
    · exact ih _
    · rfl

theorem follow_eq_walk {t : FileTree} {at_ q : Place} {l : List String}
    (leads : t.follow at_ l = some q) : q = at_.walk l := by
  induction l generalizing at_ with
  | nil => exact (Option.some.inj leads).symm
  | cons s l ih => exact ih (follow_cons_eq_some.1 leads).2.2

/-- A path leads where it led as long as no directory goes. -/
theorem follow_mono {t u : FileTree} (keeps : ∀ x, t.isDirectoryAt x → u.isDirectoryAt x)
    {at_ q : Place} {l : List String} (leads : t.follow at_ l = some q) :
    u.follow at_ l = some q := by
  induction l generalizing at_ with
  | nil => exact leads
  | cons s l ih =>
    obtain ⟨there, short, rest⟩ := follow_cons_eq_some.1 leads
    exact follow_cons_eq_some.2 ⟨keeps _ there, short, ih rest⟩

/-- Only a name can lead from a directory to something else. -/
theorem WellFormed.after {t : FileTree} (wf : t.WellFormed) {at_ : Place}
    (there : t.isDirectoryAt at_) (s : String) :
    t.isDirectoryAt (at_.after s) ∨
      Path.step? s = some (.name s) ∧ at_.after s = at_ ++ [s] := by
  rcases at_.after_cases s with ⟨_, stay⟩ | ⟨_, up⟩ | down
  · exact Or.inl (by rwa [stay])
  · exact Or.inl (by rw [up]; exact wf.directory there)
  · exact Or.inr down

theorem WellFormed.follow_parent {t : FileTree} (wf : t.WellFormed) {at_ q : Place}
    {l : List String} (there : t.isDirectoryAt at_) (leads : t.follow at_ l = some q) :
    t.isDirectoryAt q.dropLast := by
  induction l generalizing at_ q with
  | nil =>
    cases leads
    exact wf.directory there
  | cons s l ih =>
    obtain ⟨_, _, rest⟩ := follow_cons_eq_some.1 leads
    rcases wf.after there s with directory | ⟨_, down⟩
    · exact ih directory rest
    · cases l with
      | nil =>
        cases rest
        rw [down, List.dropLast_concat]
        exact there
      | cons r l => exact ih (follow_cons_eq_some.1 rest).1 rest

theorem follow_of_locate? {t : FileTree} {p : Path} {q : Place} (located : t.locate? p = some q) :
    t.follow (t.start p) p.segments = some q := by
  unfold locate? at located
  split at located
  · exact located
  · cases located

theorem eq_walk_of_locate? {t : FileTree} {p : Path} {q : Place} (located : t.locate? p = some q) :
    q = (t.start p).walk p.segments := follow_eq_walk (follow_of_locate? located)

theorem start_eq {t u : FileTree} (working : u.workingDirectory = t.workingDirectory) (p : Path) :
    u.start p = t.start p := by
  unfold start
  rw [working]

theorem locate?_mono {t u : FileTree} (working : u.workingDirectory = t.workingDirectory)
    (keeps : ∀ x, t.isDirectoryAt x → u.isDirectoryAt x) {p : Path} {x : Place}
    (located : t.locate? p = some x) : u.locate? p = some x := by
  unfold locate? at located ⊢
  split at located
  · next usable =>
    rw [if_pos usable, start_eq working]
    exact follow_mono keeps located
  · cases located

theorem exists_of_read? {t : FileTree} {p : Path} {content : ByteArray}
    (read : t.read? p = some content) :
    ∃ x, t.locate? p = some x ∧ t.node? x = some (.file content) := by
  unfold read? at read
  split at read
  · next content' found =>
    cases read
    exact Option.bind_eq_some_iff.1 found
  · cases read

theorem WellFormed.start {t : FileTree} (wf : t.WellFormed) (p : Path) :
    t.isDirectoryAt (t.start p) := by
  unfold FileTree.start
  split
  · exact isDirectoryAt_iff.2 rfl
  · exact wf.working

/-- Trees with the same directories, in which a path leads to the same place. -/
structure SameDirectories (t u : FileTree) : Prop where
  working : u.workingDirectory = t.workingDirectory
  directory : ∀ x, u.isDirectoryAt x = t.isDirectoryAt x

theorem SameDirectories.trans {t u v : FileTree} (first : SameDirectories t u)
    (second : SameDirectories u v) : SameDirectories t v :=
  ⟨second.working.trans first.working, fun x => (second.directory x).trans (first.directory x)⟩

theorem SameDirectories.locate? {t u : FileTree} (same : SameDirectories t u) (p : Path) :
    u.locate? p = t.locate? p := by
  have follow (at_ : Place) (l : List String) : u.follow at_ l = t.follow at_ l := by
    induction l generalizing at_ with
    | nil => rfl
    | cons s l ih => rw [follow_cons, follow_cons, same.directory, ih]
  rw [FileTree.locate?, FileTree.locate?, start_eq same.working, follow]

theorem sameDirectories_put {t : FileTree} {a : Place} (other : ¬ t.isDirectoryAt a)
    (content : ByteArray) : SameDirectories t (t.put a (.file content)) := by
  refine ⟨rfl, fun x => ?_⟩
  rw [Bool.eq_iff_iff, isDirectoryAt_iff, isDirectoryAt_iff,
    node?_put (ne_root_of_not_directory other)]
  split
  · next same =>
    subst same
    simpa using isDirectoryAt_iff.not.1 other
  · rfl

theorem sameDirectories_drop {t : FileTree} {a : Place} (other : ¬ t.isDirectoryAt a) :
    SameDirectories t (t.drop a) := by
  refine ⟨rfl, fun x => ?_⟩
  rw [Bool.eq_iff_iff, isDirectoryAt_iff, isDirectoryAt_iff,
    node?_drop (ne_root_of_not_directory other)]
  split
  · next same =>
    subst same
    simpa using isDirectoryAt_iff.not.1 other
  · rfl

theorem WellFormed.of_sameDirectories {t u : FileTree} (wf : t.WellFormed)
    (same : SameDirectories t u)
    (there : ∀ x, (u.node? x).isSome → (t.node? x).isSome ∨ t.isDirectoryAt x.dropLast) :
    u.WellFormed := by
  refine ⟨fun x found => ?_, ?_⟩
  · rw [same.directory]
    rcases there x found with before | parent
    · exact wf.parent x before
    · exact parent
  · rw [same.working, same.directory]
    exact wf.working

theorem WellFormed.put {t : FileTree} (wf : t.WellFormed) {a : Place}
    (other : ¬ t.isDirectoryAt a) (parent : t.isDirectoryAt a.dropLast) (content : ByteArray) :
    (t.put a (.file content)).WellFormed := by
  refine wf.of_sameDirectories (sameDirectories_put other content) fun x found => ?_
  rw [node?_put (ne_root_of_not_directory other)] at found
  split at found
  · next same => exact Or.inr (same ▸ parent)
  · exact Or.inl found

theorem WellFormed.drop {t : FileTree} (wf : t.WellFormed) {a : Place}
    (other : ¬ t.isDirectoryAt a) : (t.drop a).WellFormed := by
  refine wf.of_sameDirectories (sameDirectories_drop other) fun x found => ?_
  rw [node?_drop (ne_root_of_not_directory other)] at found
  split at found
  · cases found
  · exact Or.inl found

/-- A tree with more directories, where nothing was. -/
structure Extends (t u : FileTree) : Prop where
  working : u.workingDirectory = t.workingDirectory
  node : ∀ x, u.node? x = t.node? x ∨ t.node? x = none ∧ u.node? x = some .directory

theorem Extends.refl (t : FileTree) : Extends t t := ⟨rfl, fun _ => Or.inl rfl⟩

theorem Extends.trans {t u v : FileTree} (first : Extends t u) (second : Extends u v) :
    Extends t v := by
  refine ⟨second.working.trans first.working, fun x => ?_⟩
  rcases second.node x with same | ⟨none, new⟩
  · rw [same]
    exact first.node x
  · rcases first.node x with same | ⟨_, old⟩
    · exact Or.inr ⟨same.symm.trans none, new⟩
    · rw [none] at old
      cases old

theorem Extends.directory {t u : FileTree} (more : Extends t u) {x : Place}
    (there : t.isDirectoryAt x) : u.isDirectoryAt x := by
  rw [isDirectoryAt_iff] at there ⊢
  rcases more.node x with same | ⟨none, _⟩
  · rw [same, there]
  · rw [none] at there
    cases there

theorem extends_put {t : FileTree} {a : Place} (new : t.node? a = none) :
    Extends t (t.put a .directory) := by
  have below : a ≠ [] := by
    rintro rfl
    cases new
  refine ⟨rfl, fun x => ?_⟩
  rw [node?_put below]
  split
  · next same => exact Or.inr ⟨same ▸ new, rfl⟩
  · exact Or.inl rfl

theorem WellFormed.extend {t : FileTree} (wf : t.WellFormed) {a : Place} (new : t.node? a = none)
    (parent : t.isDirectoryAt a.dropLast) : (t.put a .directory).WellFormed := by
  have below : a ≠ [] := by
    rintro rfl
    cases new
  refine ⟨fun x found => (extends_put new).directory ?_, (extends_put new).directory wf.working⟩
  rw [node?_put below] at found
  split at found
  · next same => exact same ▸ parent
  · exact wf.parent x found

/-- What making directories does at one text between slashes. -/
theorem makeAlong_cons {t : FileTree} (wf : t.WellFormed) {at_ : Place} (there : t.isDirectoryAt at_)
    (s : String) (r : List String) :
    (t.isDirectoryAt (at_.after s) ∧
        t.makeAlong at_ ((s :: r).filterMap Path.step?) =
          t.makeAlong (at_.after s) (r.filterMap Path.step?)) ∨
      (¬ (t.isDirectoryAt (at_.after s) ∧ fits s) ∧
        t.makeAlong at_ ((s :: r).filterMap Path.step?) = (t, false)) ∨
      (at_.after s = at_ ++ [s] ∧ t.node? (at_ ++ [s]) = none ∧
        t.makeAlong at_ ((s :: r).filterMap Path.step?) =
          (t.put (at_ ++ [s]) .directory).makeAlong (at_ ++ [s]) (r.filterMap Path.step?)) := by
  rcases at_.after_cases s with ⟨step, stay⟩ | ⟨step, up⟩ | ⟨step, down⟩
  · rw [List.filterMap_cons, step, stay]
    exact Or.inl ⟨there, rfl⟩
  · rw [List.filterMap_cons, step, up]
    exact Or.inl ⟨wf.directory there, by rw [makeAlong]⟩
  · rw [List.filterMap_cons, step, down]
    rw [makeAlong]
    split
    · next long =>
      have unfit : fits s = false := by simpa [fits] using long
      exact Or.inr (Or.inl ⟨by simp [unfit], rfl⟩)
    · split
      · next directory => exact Or.inl ⟨isDirectoryAt_iff.2 directory, rfl⟩
      · next file =>
        refine Or.inr (Or.inl ⟨fun both => ?_, rfl⟩)
        rw [isDirectoryAt_iff, file] at both
        cases both.1
      · next new => exact Or.inr (Or.inr ⟨rfl, new, rfl⟩)

/-- Making directories adds directories only; where it stops, paths lead no further. -/
structure Made (t : FileTree) (at_ : Place) (l : List String) (result : FileTree × Bool) :
    Prop where
  wellFormed : result.1.WellFormed
  more : Extends t result.1
  blocked : result.2 = false → ∀ s, result.1.follow at_ (l ++ [s]) = none

theorem makeAlong_made {t : FileTree} (wf : t.WellFormed) {at_ : Place}
    (there : t.isDirectoryAt at_) (l : List String) :
    Made t at_ l (t.makeAlong at_ (l.filterMap Path.step?)) := by
  induction l generalizing t at_ with
  | nil => exact ⟨wf, Extends.refl t, nofun⟩
  | cons s l ih =>
    have blocked {u : FileTree} (y : String) (stop : u.follow (at_.after s) (l ++ [y]) = none) :
        u.follow at_ (s :: l ++ [y]) = none := by
      rw [List.cons_append, follow_cons, stop, ite_self]
    rcases makeAlong_cons wf there s l with ⟨directory, same⟩ | ⟨stop, same⟩ | ⟨down, new, same⟩ <;>
      rw [same]
    · obtain ⟨wf', more, rest⟩ := ih wf directory
      exact ⟨wf', more, fun failed y => blocked y (rest failed y)⟩
    · refine ⟨wf, Extends.refl t, fun _ y => ?_⟩
      rw [List.cons_append, follow_cons]
      split
      · next here =>
        obtain ⟨r, m, text⟩ := List.exists_cons_of_ne_nil (List.append_ne_nil_of_right_ne_nil l
          (List.cons_ne_nil y []))
        rw [text, follow_cons, if_neg]
        exact fun next => stop ⟨next.1, here.2⟩
      · rfl
    · have parent : t.isDirectoryAt (at_ ++ [s]).dropLast := by
        rwa [List.dropLast_concat]
      have directory : (t.put (at_ ++ [s]) .directory).isDirectoryAt (at_ ++ [s]) := by
        rw [isDirectoryAt_iff, node?_put (by simp), if_pos rfl]
      obtain ⟨wf', more, rest⟩ := ih (wf.extend new parent) directory
      refine ⟨wf', (extends_put new).trans more, fun failed y => blocked y ?_⟩
      rw [down]
      exact rest failed y

/-- Every step up comes after a directory that is there. -/
def Climbs (t : FileTree) (at_ : Place) (l : List String) : Prop :=
  ∀ m r, l = m ++ ".." :: r → (t.follow at_ (m ++ [".."])).isSome

theorem climbs_of_not_mem {t : FileTree} {at_ : Place} {l : List String} (level : ".." ∉ l) :
    t.Climbs at_ l := by
  rintro m r rfl
  exact (level (by simp)).elim

theorem Climbs.tail {t : FileTree} {at_ : Place} {s : String} {l : List String}
    (climbs : t.Climbs at_ (s :: l)) : t.Climbs (at_.after s) l := by
  intro m r shape
  have leads := climbs (s :: m) r (by rw [shape, List.cons_append])
  rw [List.cons_append, follow_cons] at leads
  split at leads
  · exact leads
  · cases leads

theorem Climbs.of_append {t : FileTree} {at_ : Place} {l m : List String}
    (climbs : t.Climbs at_ (l ++ m)) : t.Climbs at_ l := by
  intro k r shape
  exact climbs k (r ++ m) (by rw [shape, List.append_assoc, List.cons_append])

theorem Climbs.mono {t u : FileTree} (keeps : ∀ x, t.isDirectoryAt x → u.isDirectoryAt x)
    {at_ : Place} {l : List String} (climbs : t.Climbs at_ l) : u.Climbs at_ l := by
  intro m r shape
  obtain ⟨q, leads⟩ := Option.isSome_iff_exists.1 (climbs m r shape)
  rw [follow_mono keeps leads]
  rfl

/-- No step up comes after what is no directory. -/
theorem Climbs.not_mem {t : FileTree} {at_ : Place} {l : List String} (climbs : t.Climbs at_ l)
    (other : ¬ t.isDirectoryAt at_) : ".." ∉ l := by
  intro member
  obtain ⟨m, r, shape⟩ := List.append_of_mem member
  obtain ⟨q, leads⟩ := Option.isSome_iff_exists.1 (climbs m r shape)
  cases m with
  | nil => exact other (follow_cons_eq_some.1 leads).1
  | cons s m => exact other (follow_cons_eq_some.1 leads).1

theorem prefix_walk {at_ : Place} {l : List String} (level : ".." ∉ l) : at_ <+: at_.walk l := by
  induction l generalizing at_ with
  | nil => exact List.prefix_rfl
  | cons s l ih =>
    rw [List.mem_cons, not_or] at level
    have rest : at_.after s <+: at_.walk (s :: l) := ih level.2
    rcases at_.after_cases s with ⟨_, stay⟩ | ⟨step, _⟩ | ⟨_, down⟩
    · rwa [stay] at rest
    · exact (level.1 (Path.step?_eq_up.1 step).symm).elim
    · rw [down] at rest
      exact (List.prefix_append ..).trans rest

/-- Directories are made on the way only, if no step up comes after one of them. -/
theorem makeAlong_node? {t : FileTree} (wf : t.WellFormed) {at_ : Place}
    (there : t.isDirectoryAt at_) {l : List String} (climbs : t.Climbs at_ l) {x : Place}
    (aside : ¬ x <+: at_.walk l) :
    (t.makeAlong at_ (l.filterMap Path.step?)).1.node? x = t.node? x := by
  induction l generalizing t at_ with
  | nil => rfl
  | cons s l ih =>
    rcases makeAlong_cons wf there s l with ⟨directory, same⟩ | ⟨stop, same⟩ | ⟨down, new, same⟩ <;>
      rw [same]
    · exact ih wf directory climbs.tail aside
    · have parent : t.isDirectoryAt (at_ ++ [s]).dropLast := by
        rwa [List.dropLast_concat]
      have directory : (t.put (at_ ++ [s]) .directory).isDirectoryAt (at_ ++ [s]) := by
        rw [isDirectoryAt_iff, node?_put (by simp), if_pos rfl]
      -- A step up after the new directory would have had to find it there before.
      have climbs' : t.Climbs (at_ ++ [s]) l := down ▸ climbs.tail
      have level : ".." ∉ l := by
        refine climbs'.not_mem ?_
        rw [isDirectoryAt_iff, new]
        nofun
      have aside' : ¬ x <+: (at_ ++ [s]).walk l := down ▸ aside
      have other : x ≠ at_ ++ [s] := fun same => aside' (same ▸ prefix_walk level)
      rw [ih (wf.extend new parent) directory
        (climbs'.mono fun _ => (extends_put new).directory) aside', node?_put (by simp), if_neg other]

/-- What a path leads to, and what is below it. -/
def held (t : FileTree) (p : Path) (below : List String) : Option FileNode :=
  (t.locate? p).bind fun q => t.node? (q ++ below)

/-- A path that led nowhere because of a missing directory led to nothing. -/
theorem node?_of_follow_none {t u : FileTree} (wf : t.WellFormed) {at_ q : Place} {l : List String}
    (climbs : t.Climbs at_ l) (there : t.isDirectoryAt at_) (lost : t.follow at_ l = none)
    (found : u.follow at_ l = some q) (same : u.node? q = t.node? q) (below : List String) :
    t.node? (q ++ below) = none := by
  induction l generalizing at_ with
  | nil => cases lost
  | cons s l ih =>
    obtain ⟨_, short, rest⟩ := follow_cons_eq_some.1 found
    rw [follow_cons, if_pos ⟨there, short⟩] at lost
    by_cases next : t.isDirectoryAt (at_.after s)
    · exact ih climbs.tail next lost rest
    · -- From here the path only goes down, so what it names stands below the missing directory.
      have level := climbs.tail.not_mem next
      obtain ⟨y, way⟩ : at_.after s <+: q := follow_eq_walk rest ▸ prefix_walk level
      by_contra something
      refine next (wf.above (y := y ++ below) ?_ ?_)
      · intro none
        rw [List.append_eq_nil_iff] at none
        rw [none.1, List.append_nil] at way
        cases l with
        | nil => cases lost
        | cons r l =>
          have directory := (follow_cons_eq_some.1 rest).1
          rw [isDirectoryAt_iff, way, same, ← isDirectoryAt_iff, ← way] at directory
          exact next directory
      · rw [← List.append_assoc, way]
        exact Option.isSome_iff_ne_none.2 something

/-- A path holds what it held if the place that it names does, whatever directories have come. -/
theorem held_eq {t u : FileTree} (wf : t.WellFormed)
    (working : u.workingDirectory = t.workingDirectory)
    (keeps : ∀ x, t.isDirectoryAt x → u.isDirectoryAt x) {p : Path}
    (climbs : t.Climbs (t.start p) p.segments)
    (same : ∀ below, u.node? ((t.start p).walk p.segments ++ below) =
      t.node? ((t.start p).walk p.segments ++ below)) (below : List String) :
    u.held p below = t.held p below := by
  unfold held locate?
  split
  · rw [start_eq working]
    cases before : t.follow (t.start p) p.segments with
    | some q =>
      rw [follow_mono keeps before, follow_eq_walk before]
      exact same below
    | none =>
      cases after : u.follow (t.start p) p.segments with
      | none => rfl
      | some q =>
        have way := follow_eq_walk after
        subst way
        have at_q := same []
        rw [List.append_nil] at at_q
        have nothing := node?_of_follow_none wf climbs (wf.start p) before after at_q below
        exact (same below).trans nothing
  · rfl

end FileTree
end PluginDescriptor
