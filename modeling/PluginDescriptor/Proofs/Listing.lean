import Mathlib.Data.List.Forall2
import Mathlib.Data.List.Perm.Basic
import PluginDescriptor.CommandLine.Inputs
import PluginDescriptor.Proofs.Below

namespace PluginDescriptor

theorem OrderedMap.mem_entries_iff {α β : Type} [DecidableEq α] {m : OrderedMap α β} {k : α}
    {v : β} : (k, v) ∈ m.entries ↔ m.get? k = some v := by
  constructor
  · intro member
    have found := OrderedMap.get?_ofList_of_mem m.nodup_keys member
    rwa [OrderedMap.ofList_entries] at found
  · intro found
    rw [← OrderedMap.ofList_entries m] at found
    exact OrderedMap.mem_of_get?_ofList found

/-- Names that lead to a snapshot: the last of them is that of one. -/
def IsSnapshotPlace (names : List String) : Prop :=
  ∃ s, names.getLast? = some s ∧ IsSnapshotName s

namespace FileTree

open PluginDescriptor.Path (key namesKey)

/-- A tree as it can be on a disk: everything stands in a directory under a name of its own. -/
structure Sound (t : FileTree) : Prop where
  wellFormed : t.WellFormed
  names : ∀ x, (t.node? x).isSome → ∀ s ∈ x, IsFileName s

/-- Whether a tree can be on a disk can be told from its entries. -/
theorem sound_of_entries {t : FileTree} (parent : ∀ e ∈ t.nodes.entries, t.isDirectoryAt e.1.dropLast)
    (working : t.isDirectoryAt t.workingDirectory)
    (names : ∀ e ∈ t.nodes.entries, ∀ s ∈ e.1, IsFileName s) : t.Sound := by
  refine ⟨wellFormed_of_entries parent working, fun x there => ?_⟩
  unfold node? at there
  split at there
  · next root =>
    intro s member
    rw [root] at member
    exact absurd member List.not_mem_nil
  · obtain ⟨n, found⟩ := Option.isSome_iff_exists.1 there
    exact names _ (OrderedMap.mem_entries_iff.2 found)

/-- The snapshots below a directory with their contents, in ascending order. -/
structure Listing (t : FileTree) (at_ : Place) (files : List (List String × ByteArray)) : Prop where
  ascending : files.Pairwise fun f g => namesKey f.1 < namesKey g.1
  mem : ∀ names content, (names, content) ∈ files ↔
    t.node? (at_ ++ names) = some (.file content) ∧ IsSnapshotPlace names

/-- Trees with the same snapshots below a directory have the same listing of it. -/
theorem Listing.unique {t u : FileTree} {at_ : Place} {l m : List (List String × ByteArray)}
    (listing : Listing t at_ l) (listing' : Listing u at_ m)
    (same : ∀ names content, IsSnapshotPlace names →
      (t.node? (at_ ++ names) = some (.file content) ↔
        u.node? (at_ ++ names) = some (.file content))) : l = m := by
  have nodup {t : FileTree} {l : List (List String × ByteArray)} (listing : Listing t at_ l) :
      l.Nodup := listing.ascending.imp fun less => by
    rintro rfl
    exact List.lt_irrefl _ less
  refine List.Perm.eq_of_pairwise (fun f g _ _ less less' => (List.lt_asymm less less').elim)
    listing.ascending listing'.ascending ?_
  refine (List.perm_ext_iff_of_nodup (nodup listing) (nodup listing')).2 fun ⟨names, content⟩ => ?_
  rw [listing.mem, listing'.mem]
  constructor
  · exact fun ⟨file, snapshot⟩ => ⟨(same names content snapshot).1 file, snapshot⟩
  · exact fun ⟨file, snapshot⟩ => ⟨(same names content snapshot).2 file, snapshot⟩

end FileTree

namespace CommandLine

open FileTree (Sound Listing isDirectoryAt_iff)
open PluginDescriptor.Path (key namesKey)

theorem insertPath_perm (p : Path) (l : List Path) : (insertPath p l).Perm (p :: l) := by
  induction l with
  | nil => exact .refl _
  | cons q l ih =>
    rw [insertPath]
    split
    · exact (ih.cons q).trans (.swap ..)
    · exact .refl _

theorem pairwise_insertPath {p : Path} {l : List Path} (ascending : l.Pairwise (key · < key ·))
    (new : ∀ q ∈ l, p.key ≠ q.key) : (insertPath p l).Pairwise (key · < key ·) := by
  induction l with
  | nil => exact List.pairwise_singleton ..
  | cons q l ih =>
    obtain ⟨first, ascending'⟩ := List.pairwise_cons.1 ascending
    rw [insertPath]
    split
    · next before =>
      refine List.pairwise_cons.2 ⟨fun r member => ?_, ih ascending' fun r member =>
        new r (List.mem_cons_of_mem _ member)⟩
      rcases List.mem_cons.1 ((insertPath_perm p l).mem_iff.1 member) with rfl | old
      · exact (Path.before_iff q r).1 before
      · exact first r old
    · next later =>
      have less : p.key < q.key := by
        rw [Path.before_iff] at later
        exact (List.le_iff_lt_or_eq.1 later).resolve_right (new q (List.mem_cons_self ..))
      refine List.pairwise_cons.2 ⟨fun r member => ?_, ascending⟩
      rcases List.mem_cons.1 member with rfl | old
      · exact less
      · exact List.lt_trans less (first r old)

theorem foldr_insertPath_perm (l : List Path) : (l.foldr insertPath []).Perm l := by
  induction l with
  | nil => exact .refl _
  | cons p l ih => exact (insertPath_perm p _).trans (ih.cons p)

theorem pairwise_foldr_insertPath {l : List Path} (apart : l.Pairwise (key · ≠ key ·)) :
    (l.foldr insertPath []).Pairwise (key · < key ·) := by
  induction l with
  | nil => exact .nil
  | cons p l ih =>
    obtain ⟨new, apart'⟩ := List.pairwise_cons.1 apart
    exact pairwise_insertPath (ih apart') fun q member =>
      new q ((foldr_insertPath_perm l).mem_iff.1 member)

/-- The file that an entry of a tree is, if it is one below a place. -/
def fileBelow? (at_ : Place) : Place × FileNode → Option (List String × ByteArray)
  | (q, .file content) => if at_.isPrefixOf q then some (q.drop at_.length, content) else none
  | (_, .directory) => none

theorem fileBelow?_eq_some {at_ : Place} {e : Place × FileNode} {names : List String}
    {content : ByteArray} :
    fileBelow? at_ e = some (names, content) ↔ e = (at_ ++ names, .file content) := by
  constructor
  · intro shown
    unfold fileBelow? at shown
    split at shown
    · split at shown
      · next within =>
        obtain ⟨r, rfl⟩ := List.isPrefixOf_iff_prefix.1 within
        obtain ⟨rfl, rfl⟩ := Prod.mk.inj (Option.some.inj shown)
        rw [List.drop_left]
      · cases shown
    · cases shown
  · rintro rfl
    have within : at_.isPrefixOf (at_ ++ names) :=
      List.isPrefixOf_iff_prefix.2 (List.prefix_append ..)
    simp only [fileBelow?, within, if_true, List.drop_left]

/-- The files below a place, with their contents, in the order in which the tree holds them. -/
def heldBelow (t : FileTree) (at_ : Place) : List (List String × ByteArray) :=
  t.nodes.entries.filterMap (fileBelow? at_)

theorem filesBelow_eq (t : FileTree) (at_ : Place) :
    t.filesBelow at_ = (heldBelow t at_).map Prod.fst := by
  rw [heldBelow, List.map_filterMap, FileTree.filesBelow]
  congr 1
  funext ⟨q, n⟩
  cases n with
  | file content =>
    simp only [fileBelow?]
    split <;> rfl
  | directory => rfl

theorem mem_heldBelow {t : FileTree} {at_ : Place} {names : List String} {content : ByteArray} :
    (names, content) ∈ heldBelow t at_ ↔ t.nodes.get? (at_ ++ names) = some (.file content) := by
  simp only [heldBelow, List.mem_filterMap, fileBelow?_eq_some, exists_eq_right,
    OrderedMap.mem_entries_iff]

theorem heldBelow_apart (t : FileTree) (at_ : Place) :
    (heldBelow t at_).Pairwise fun f g => f.1 ≠ g.1 := by
  have keys : t.nodes.entries.Pairwise fun e f => e.1 ≠ f.1 :=
    List.pairwise_map.1 t.nodes.nodup_keys
  refine keys.filterMap _ fun e e' other f shown f' shown' same => other ?_
  rw [fileBelow?_eq_some.1 shown, fileBelow?_eq_some.1 shown', same]

theorem extension?_below {p : Path} (filled : p.text ≠ "") {names : List String}
    (valid : ∀ s ∈ names, IsFileName s) (some : names ≠ []) :
    (p.below names).extension? = Option.some "json" ↔ IsSnapshotPlace names := by
  obtain ⟨front, s, rfl⟩ := (List.eq_nil_or_concat' names).resolve_left some
  have valid' : ∀ r ∈ front, IsFileName r := fun r member => valid r (by simp [member])
  rw [Path.below_concat, Path.join_extension? (Path.below_filled filled valid') (valid s (by simp))]
  simp [IsSnapshotPlace]

/-- A path with an extension does not lead to the root. -/
theorem ne_root_of_extension? {t : FileTree} {p : Path} {at_ : Place} {s : String}
    (extension : p.extension? = some s) (located : t.locate? p = some at_) : at_ ≠ [] := by
  cases named : p.splitName? with
  | none => simp [Path.extension?, named] at extension
  | some parts =>
    obtain ⟨front, name⟩ := parts
    rw [FileTree.eq_walk_of_locate? located,
      FileTree.walk_segments named]
    simp

/-- The snapshots below a directory, in the order in which the tree holds them. -/
def snapshotsBelow (t : FileTree) (p : Path) (at_ : Place) : List (List String × ByteArray) :=
  (heldBelow t at_).filter fun f => (p.below f.1).extension? = some "json"

theorem filled_of_locate? {t : FileTree} {p : Path} {at_ : Place}
    (located : t.locate? p = some at_) : p.text ≠ "" := by
  intro none
  simp [FileTree.locate?, FileTree.isUsable, none] at located

section

variable {t : FileTree} (sound : t.Sound) {p : Path} {at_ : Place}
  (located : t.locate? p = some at_) (there : t.isDirectoryAt at_)

include sound located there

theorem mem_snapshotsBelow {names : List String} {content : ByteArray} :
    (names, content) ∈ snapshotsBelow t p at_ ↔
      t.node? (at_ ++ names) = some (.file content) ∧ IsSnapshotPlace names := by
  have filled := filled_of_locate? located
  have valid (node : t.node? (at_ ++ names) = some (.file content)) :
      ∀ s ∈ names, IsFileName s := fun s part =>
    sound.names _ (by rw [node]; rfl) s (List.mem_append_right _ part)
  have some (node : t.node? (at_ ++ names) = some (.file content)) : names ≠ [] := by
    rintro rfl
    rw [List.append_nil, isDirectoryAt_iff.1 there] at node
    cases node
  rw [snapshotsBelow, List.mem_filter, mem_heldBelow, decide_eq_true_eq]
  constructor
  · rintro ⟨held, extension⟩
    have below : at_ ++ names ≠ [] := by
      intro root
      obtain ⟨rfl, rfl⟩ := List.append_eq_nil_iff.1 root
      exact ne_root_of_extension? extension located rfl
    have node : t.node? (at_ ++ names) = Option.some (.file content) := by
      rw [FileTree.node?, if_neg below, held]
    exact ⟨node, (extension?_below filled (valid node) (some node)).1 extension⟩
  · rintro ⟨node, snapshot⟩
    refine ⟨?_, (extension?_below filled (valid node) (some node)).2 snapshot⟩
    rwa [FileTree.node?, if_neg (List.append_ne_nil_of_right_ne_nil _ (some node))] at node

/-- The paths of snapshots are in the order of their names. -/
theorem snapshotsBelow_key_lt {f g : List String × ByteArray} (member : f ∈ snapshotsBelow t p at_)
    (member' : g ∈ snapshotsBelow t p at_) :
    (p.below f.1).key < (p.below g.1).key ↔ namesKey f.1 < namesKey g.1 := by
  have valid {f : List String × ByteArray} (member : f ∈ snapshotsBelow t p at_) :
      ∀ s ∈ f.1, IsFileName s := by
    intro s part
    obtain ⟨node, _⟩ := (mem_snapshotsBelow sound located there).1 member
    exact sound.names _ (by rw [node]; rfl) s (List.mem_append_right _ part)
  exact Path.below_key_lt (filled_of_locate? located) (valid member) (valid member')

theorem snapshotsBelow_apart :
    ((snapshotsBelow t p at_).map fun f => p.below f.1).Pairwise (key · ≠ key ·) := by
  refine List.pairwise_map.2 (((heldBelow_apart t at_).filter _).imp_of_mem ?_)
  intro f g member member' other same
  -- Paths neither of which comes first are those of the same names.
  have stay : ¬ namesKey f.1 < namesKey g.1 := by
    rw [← snapshotsBelow_key_lt sound located there member member', same]
    exact List.lt_irrefl _
  have stay' : ¬ namesKey g.1 < namesKey f.1 := by
    rw [← snapshotsBelow_key_lt sound located there member' member, same]
    exact List.lt_irrefl _
  exact other (Path.namesKey_injective (List.le_antisymm stay' stay))

omit sound there in
theorem snapshotFiles_eq_sorted :
    snapshotFiles t p = ((snapshotsBelow t p at_).map fun f => p.below f.1).foldr insertPath [] := by
  simp only [snapshotFiles, located, filesBelow_eq, snapshotsBelow, List.filter_map, List.map_map]
  rfl

/-- The snapshot files below a directory are the paths of a listing. -/
theorem snapshotFiles_eq :
    ∃ files, Listing t at_ files ∧ snapshotFiles t p = files.map fun f => p.below f.1 := by
  -- The sorting of the paths is one of the files.
  have related : List.Forall₂ (fun (q : Path) (f : List String × ByteArray) => q = p.below f.1)
      ((snapshotsBelow t p at_).map fun f => p.below f.1) (snapshotsBelow t p at_) :=
    List.forall₂_map_left_iff.2 (List.forall₂_same.2 fun _ _ => rfl)
  obtain ⟨files, shown, perm⟩ := List.perm_comp_forall₂ (foldr_insertPath_perm _) related
  have shape : snapshotFiles t p = files.map fun f => p.below f.1 := by
    rw [snapshotFiles_eq_sorted located, ← List.forall₂_eq_eq_eq, List.forall₂_map_right_iff]
    exact shown
  have sorted := pairwise_foldr_insertPath (snapshotsBelow_apart sound located there)
  rw [← snapshotFiles_eq_sorted located, shape, List.pairwise_map] at sorted
  refine ⟨files, ⟨?_, fun names content => perm.mem_iff.trans
    (mem_snapshotsBelow sound located there)⟩, shape⟩
  exact sorted.imp_of_mem fun member member' =>
    (snapshotsBelow_key_lt sound located there (perm.mem_iff.1 member)
      (perm.mem_iff.1 member')).1

end

end CommandLine
end PluginDescriptor
