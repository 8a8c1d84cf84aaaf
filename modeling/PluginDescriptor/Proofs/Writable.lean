import PluginDescriptor.Proofs.Replacing

namespace PluginDescriptor.FileTree

theorem extends_makeAlong (t : FileTree) (at_ : Place) (steps : List PathStep) :
    Extends t (t.makeAlong at_ steps).1 := by
  induction steps generalizing t at_ with
  | nil => exact Extends.refl t
  | cons step steps ih =>
    cases step with
    | root => exact ih t []
    | here => exact ih t at_
    | up => exact ih t at_.dropLast
    | name s =>
      rw [makeAlong]
      split
      · exact Extends.refl t
      · split
        · exact ih t _
        · exact Extends.refl t
        · next new => exact (extends_put new).trans (ih _ _)

/-- Directories that were made are found when they are to be made again. -/
theorem makeAlong_again {t u v : FileTree} {at_ : Place} {steps : List PathStep}
    (made : t.makeAlong at_ steps = (u, true))
    (keeps : ∀ x, u.isDirectoryAt x → v.isDirectoryAt x) : v.makeAlong at_ steps = (v, true) := by
  induction steps generalizing t at_ with
  | nil => rfl
  | cons step steps ih =>
    cases step with
    | root => exact ih made
    | here => exact ih made
    | up => exact ih made
    | name s =>
      have found {t' : FileTree} (there : t'.isDirectoryAt (at_ ++ [s]))
          (made : t'.makeAlong (at_ ++ [s]) steps = (u, true)) :
          v.node? (at_ ++ [s]) = some .directory := by
        have more := extends_makeAlong t' (at_ ++ [s]) steps
        rw [made] at more
        exact isDirectoryAt_iff.1 (keeps _ (more.directory there))
      rw [makeAlong] at made ⊢
      split at made
      · cases made
      · next short =>
        rw [if_neg short]
        split at made
        · next there =>
          simp only [found (isDirectoryAt_iff.2 there) made]
          exact ih made
        · cases made
        · next new =>
          have there : (t.put (at_ ++ [s]) .directory).isDirectoryAt (at_ ++ [s]) := by
            rw [isDirectoryAt_iff, node?_put (by simp), if_pos rfl]
          simp only [found there made]
          exact ih made

theorem isDirectoryAt_put {t : FileTree} {a : Place} (below : a ≠ []) (x : Place) :
    (t.put a .directory).isDirectoryAt x ↔ x = a ∨ t.isDirectoryAt x := by
  rw [isDirectoryAt_iff, isDirectoryAt_iff, node?_put below]
  by_cases same : x = a
  · simp only [same, if_true, true_or]
  · simp only [same, if_false, false_or]

/-- The directories that end up in one tree, against those that do in another one: all of them, and no more
than this other one had. -/
structure Covers (u made made' : FileTree) : Prop where
  keeps : ∀ x, made.isDirectoryAt x → made'.isDirectoryAt x
  adds : ∀ x, made'.isDirectoryAt x → made.isDirectoryAt x ∨ u.isDirectoryAt x

theorem Covers.of_put {u made made' : FileTree} {a : Place} (below : a ≠ [])
    (covers : Covers (u.put a .directory) made made') (there : made.isDirectoryAt a) :
    Covers u made made' := by
  refine ⟨covers.keeps, fun x directory => ?_⟩
  rcases covers.adds x directory with found | found
  · exact Or.inl found
  · rcases (isDirectoryAt_put below x).1 found with rfl | found
    · exact Or.inl there
    · exact Or.inr found

/-- A tree has no files in certain places where another one has nothing. -/
def LeavesFree (t u : FileTree) (x : Place) : Prop :=
  t.node? x = none → u.node? x = none ∨ u.isDirectoryAt x

theorem LeavesFree.put {t u v : FileTree} {a x : Place} (below : a ≠ []) (free : LeavesFree t u x)
    (more : Extends u v) : LeavesFree (t.put a .directory) v x := by
  intro nothing
  rw [node?_put below] at nothing
  split at nothing
  · cases nothing
  · rcases more.node x with kept | ⟨_, new⟩
    · rw [isDirectoryAt_iff, kept, ← isDirectoryAt_iff]
      exact free nothing
    · exact Or.inr (isDirectoryAt_iff.2 new)

/-- Directories that can be made in one tree can be made in another one that has its directories and, on the
way, no file where nothing was. -/
theorem makeAlong_covers {t u : FileTree} {at_ : Place} {l : List String}
    (made : (t.makeAlong at_ (l.filterMap Path.step?)).2 = true)
    (keeps : ∀ x, t.isDirectoryAt x → u.isDirectoryAt x)
    (free : ∀ m, m <+: l → LeavesFree t u (at_.walk m)) :
    (u.makeAlong at_ (l.filterMap Path.step?)).2 = true ∧
      Covers u (t.makeAlong at_ (l.filterMap Path.step?)).1
        (u.makeAlong at_ (l.filterMap Path.step?)).1 := by
  induction l generalizing t u at_ with
  | nil => exact ⟨rfl, keeps, fun x there => Or.inr there⟩
  | cons s l ih =>
    have later (m : List String) (within : m <+: l) : LeavesFree t u ((at_.after s).walk m) :=
      free (s :: m) (List.cons_prefix_cons.2 ⟨rfl, within⟩)
    rcases at_.after_cases s with ⟨step, same⟩ | ⟨step, same⟩ | ⟨step, same⟩ <;>
      simp only [List.filterMap_cons, step] at made ⊢ <;> rw [same] at later
    · exact ih made keeps later
    · exact ih made keeps later
    · have below : at_ ++ [s] ≠ [] := by simp
      rw [makeAlong] at made ⊢
      rw [makeAlong]
      split at made
      · cases made
      · next short =>
        rw [if_neg short, if_neg short]
        split at made
        · next directory =>
          simp only [isDirectoryAt_iff.1 (keeps _ (isDirectoryAt_iff.2 directory))]
          exact ih made keeps later
        · cases made
        · next new =>
          have there := (isDirectoryAt_put (t := t) below _).2 (Or.inl rfl)
          have here : LeavesFree t u (at_ ++ [s]) := same ▸ free [s] (List.prefix_append [s] l)
          rcases here new with nothing | directory
          · simp only [nothing]
            have keeps' (x : Place) (old : (t.put (at_ ++ [s]) .directory).isDirectoryAt x) :
                (u.put (at_ ++ [s]) .directory).isDirectoryAt x :=
              (isDirectoryAt_put below x).2 (((isDirectoryAt_put below x).1 old).imp_right (keeps x))
            obtain ⟨done, covers⟩ := ih made keeps' fun m within =>
              (later m within).put below (extends_put nothing)
            exact ⟨done, covers.of_put below ((extends_makeAlong ..).directory there)⟩
          · simp only [isDirectoryAt_iff.1 directory]
            have keeps' (x : Place) (old : (t.put (at_ ++ [s]) .directory).isDirectoryAt x) :
                u.isDirectoryAt x := by
              rcases (isDirectoryAt_put below x).1 old with rfl | old
              · exact directory
              · exact keeps x old
            exact ih made keeps' fun m within => (later m within).put below (Extends.refl u)

/-- A directory that was made is on the way. -/
theorem makeAlong_new {t : FileTree} {at_ : Place} {l : List String} {x : Place}
    (nothing : t.node? x = none)
    (made : (t.makeAlong at_ (l.filterMap Path.step?)).1.node? x = some .directory) :
    ∃ m, m <+: l ∧ x = at_.walk m := by
  induction l generalizing t at_ with
  | nil =>
    rw [List.filterMap_nil, makeAlong, nothing] at made
    cases made
  | cons s l ih =>
    have later (rest : ∃ m, m <+: l ∧ x = (at_.after s).walk m) :
        ∃ m, m <+: s :: l ∧ x = at_.walk m := by
      obtain ⟨m, within, way⟩ := rest
      exact ⟨s :: m, List.cons_prefix_cons.2 ⟨rfl, within⟩, way⟩
    rcases at_.after_cases s with ⟨step, stay⟩ | ⟨step, up⟩ | ⟨step, down⟩ <;>
      rw [List.filterMap_cons, step] at made
    · exact later (ih nothing (by rwa [stay]))
    · exact later (ih nothing (by rwa [up]))
    · dsimp only at made
      rw [makeAlong] at made
      split at made
      · rw [nothing] at made
        cases made
      · split at made
        · exact later (ih nothing (by rwa [down]))
        · rw [nothing] at made
          cases made
        · by_cases here : x = at_ ++ [s]
          · exact later ⟨[], List.nil_prefix, by rw [down, here]; rfl⟩
          · rw [← down] at made
            refine later (ih ?_ made)
            rw [node?_put (by simp [down]), if_neg (by rwa [down]), nothing]

theorem extends_makeDirectories (t : FileTree) (p : Path) : Extends t (t.makeDirectories p).1 := by
  unfold makeDirectories
  split
  · exact Extends.refl t
  · split
    · exact extends_makeAlong ..
    · exact Extends.refl t

theorem makeDirectories_new {t : FileTree} {p : Path} {x : Place} (nothing : t.node? x = none)
    (made : (t.makeDirectories p).1.node? x = some .directory) :
    ∃ m, m <+: p.segments ∧ x = (t.start p).walk m := by
  unfold makeDirectories at made
  split at made
  · rw [nothing] at made
    cases made
  · split at made
    · rw [makeAlong_steps] at made
      exact makeAlong_new nothing made
    · rw [nothing] at made
      cases made

theorem makeDirectories_again {t u v : FileTree} {p : Path} (made : t.makeDirectories p = (u, true))
    (working : v.workingDirectory = t.workingDirectory)
    (keeps : ∀ x, u.isDirectoryAt x → v.isDirectoryAt x) : v.makeDirectories p = (v, true) := by
  unfold makeDirectories at made ⊢
  split
  · rfl
  · next filled =>
    rw [if_neg filled] at made
    split
    · next usable =>
      rw [if_pos usable] at made
      rw [start_eq working]
      exact makeAlong_again made keeps
    · next unusable =>
      rw [if_neg unusable] at made
      cases made

theorem extends_makeParents (t : FileTree) (p : Path) : Extends t (t.makeParents p).1 := by
  unfold makeParents
  split
  · exact Extends.refl t
  · exact extends_makeDirectories ..

/-- The places of the directories that a path leads through, from its start to its parent. -/
def IsAbove (t : FileTree) (p : Path) (x : Place) : Prop :=
  ∃ parent m, p.parent? = some parent ∧ m <+: parent.segments ∧ x = (t.start parent).walk m

theorem makeParents_new {t : FileTree} {p : Path} {x : Place} (nothing : t.node? x = none)
    (made : (t.makeParents p).1.node? x = some .directory) : t.IsAbove p x := by
  unfold makeParents at made
  split at made
  · rw [nothing] at made
    cases made
  · next parent shape =>
    obtain ⟨m, within, way⟩ := makeDirectories_new nothing made
    exact ⟨parent, m, shape, within, way⟩

theorem makeParents_again {t u v : FileTree} {p : Path} (made : t.makeParents p = (u, true))
    (working : v.workingDirectory = t.workingDirectory)
    (keeps : ∀ x, u.isDirectoryAt x → v.isDirectoryAt x) : v.makeParents p = (v, true) := by
  unfold makeParents at made ⊢
  split at made
  · rfl
  · exact makeDirectories_again made working keeps

theorem makeParents_covers {t u : FileTree} {p : Path} (made : (t.makeParents p).2 = true)
    (working : u.workingDirectory = t.workingDirectory)
    (keeps : ∀ x, t.isDirectoryAt x → u.isDirectoryAt x)
    (free : ∀ x, t.IsAbove p x → LeavesFree t u x) :
    (u.makeParents p).2 = true ∧ Covers u (t.makeParents p).1 (u.makeParents p).1 := by
  have level : Covers u t u := ⟨keeps, fun x there => Or.inr there⟩
  unfold makeParents makeDirectories at made ⊢
  split at made
  · exact ⟨rfl, level⟩
  · next parent shape =>
    split at made
    · next empty =>
      simp only [empty, if_true, true_and]
      exact level
    · next filled =>
      split at made
      · next usable =>
        have start := start_eq working parent
        have steps := makeAlong_steps u parent
        rw [start] at steps
        simp only [filled, usable, if_true, if_false, makeAlong_steps, start, steps] at made ⊢
        exact makeAlong_covers made keeps fun m within => free _ ⟨parent, m, shape, within, rfl⟩
      · cases made

theorem write?_eq_some_iff {t u : FileTree} {p : Path} {content : ByteArray} :
    t.write? p content = some u ↔
      ∃ a, t.locate? p = some a ∧ ¬ t.isDirectoryAt a ∧ u = t.put a (.file content) := by
  constructor
  · intro written
    unfold write? at written
    split at written
    · cases written
    · next a located =>
      split at written
      · cases written
      · next other => exact ⟨a, located, other, (Option.some.inj written).symm⟩
  · rintro ⟨a, located, other, rfl⟩
    exact write?_eq_some located other content

/-- What was written is read. -/
theorem read?_of_write? {t u : FileTree} {p : Path} {content : ByteArray}
    (written : t.write? p content = some u) : u.read? p = some content := by
  obtain ⟨a, located, other, rfl⟩ := write?_eq_some_iff.1 written
  refine read?_eq_some (((sameDirectories_put other content).locate? p).trans located) ?_
  rw [node?_put (ne_root_of_not_directory other), if_pos rfl]

/-- A file that was put in the place of another one is read. -/
theorem read?_of_replace {t u : FileTree} {p : Path} {content : ByteArray}
    (replaced : t.replace p content = (u, true)) : u.read? p = some content := by
  have parents : t.makeParents p = ((t.makeParents p).1, (t.makeParents p).2) := rfl
  rcases replace_cases content parents with
    ⟨_, failed⟩ | ⟨a, _, other, failed | ⟨b, located, free, moved⟩⟩
  · cases (Prod.mk.inj (replaced.symm.trans failed)).2
  · cases (Prod.mk.inj (replaced.symm.trans failed)).2
  · have dropped := sameDirectories_put_drop other content
    rw [(Prod.mk.inj (replaced.symm.trans moved)).1]
    have free' : ¬ (((t.makeParents p).1.put a (.file content)).drop a).isDirectoryAt b := by
      rwa [dropped.directory]
    have same := dropped.trans (sameDirectories_put free' content)
    refine read?_eq_some ((same.locate? p).trans located) ?_
    rw [node?_put (ne_root_of_not_directory free), if_pos rfl]

/-- The directories above a file can be made, and then the file can be written. -/
def IsWritable (t : FileTree) (p : Path) : Prop :=
  (t.makeParents p).2 = true ∧ ((t.makeParents p).1.write? p .empty).isSome

instance (t : FileTree) (p : Path) : Decidable (t.IsWritable p) :=
  inferInstanceAs (Decidable (_ ∧ _))

theorem IsWritable.write? {t : FileTree} {p : Path} (writable : t.IsWritable p)
    (content : ByteArray) : ∃ u, (t.makeParents p).1.write? p content = some u := by
  obtain ⟨u, written⟩ := Option.isSome_iff_exists.1 writable.2
  obtain ⟨a, located, other, _⟩ := write?_eq_some_iff.1 written
  exact ⟨_, write?_eq_some_iff.2 ⟨a, located, other, rfl⟩⟩

/-- A file that was written can be written again. -/
theorem IsWritable.again {t u : FileTree} {p : Path} {content : ByteArray}
    (made : (t.makeParents p).2 = true)
    (written : (t.makeParents p).1.write? p content = some u) : u.IsWritable p := by
  obtain ⟨a, located, other, rfl⟩ := write?_eq_some_iff.1 written
  have same := sameDirectories_put other content
  have parents : ((t.makeParents p).1.put a (.file content)).makeParents p =
      ((t.makeParents p).1.put a (.file content), true) := by
    refine makeParents_again (t := t) (Prod.ext rfl made) ?_ fun x there => ?_
    · exact same.working.trans (extends_makeParents t p).working
    · rwa [same.directory]
  refine ⟨by rw [parents], ?_⟩
  rw [parents, write?_eq_some ((same.locate? p).trans located) (by rwa [same.directory])]
  rfl

/-- A file that can be written in one tree can be written in another one that has its directories, none of
them in the place of the file, and no file above it where nothing was. -/
theorem IsWritable.beside {t u : FileTree} {p : Path} (writable : t.IsWritable p)
    (working : u.workingDirectory = t.workingDirectory)
    (keeps : ∀ x, t.isDirectoryAt x → u.isDirectoryAt x)
    (free : ∀ x, t.IsAbove p x → LeavesFree t u x)
    (place : u.isDirectoryAt ((t.start p).walk p.segments) →
      t.isDirectoryAt ((t.start p).walk p.segments)) : u.IsWritable p := by
  obtain ⟨made, written⟩ := writable
  obtain ⟨made', covers⟩ := makeParents_covers made working keeps free
  obtain ⟨v, written⟩ := Option.isSome_iff_exists.1 written
  obtain ⟨a, located, other, -⟩ := write?_eq_some_iff.1 written
  have more := extends_makeParents t p
  have more' := extends_makeParents u p
  have working' : (u.makeParents p).1.workingDirectory = (t.makeParents p).1.workingDirectory :=
    more'.working.trans (working.trans more.working.symm)
  have way : a = (t.start p).walk p.segments := by
    rw [eq_walk_of_locate? located, start_eq more.working]
  refine ⟨made', ?_⟩
  rw [write?_eq_some (locate?_mono working' covers.keeps located)]
  · rfl
  · intro directory
    rcases covers.adds a directory with found | found
    · exact other found
    · exact other (more.directory (way ▸ place (way ▸ found)))

end PluginDescriptor.FileTree
