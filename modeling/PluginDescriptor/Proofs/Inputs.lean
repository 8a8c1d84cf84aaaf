import PluginDescriptor.Proofs.Listing
import PluginDescriptor.Proofs.Readings

namespace PluginDescriptor

namespace FileTree

/-- Trees that hold the same at every place, in whatever order. -/
structure SameNodes (t u : FileTree) : Prop where
  working : u.workingDirectory = t.workingDirectory
  node : ∀ x, u.node? x = t.node? x

namespace SameNodes

variable {t u : FileTree} (same : SameNodes t u)

include same

theorem sameDirectories : SameDirectories t u := by
  refine ⟨same.working, fun x => ?_⟩
  rw [isDirectoryAt, isDirectoryAt, same.node]

theorem lookup? (p : Path) : u.lookup? p = t.lookup? p := by
  rw [FileTree.lookup?, FileTree.lookup?, same.sameDirectories.locate?, funext same.node]

theorem read? (p : Path) : u.read? p = t.read? p := by
  rw [FileTree.read?, FileTree.read?, same.lookup?]

theorem isDirectory (p : Path) : u.isDirectory p = t.isDirectory p := by
  rw [FileTree.isDirectory, FileTree.isDirectory, same.lookup?]

theorem isThere (p : Path) : u.isThere p = t.isThere p := by
  rw [FileTree.isThere, FileTree.isThere, same.lookup?]

theorem write? (p : Path) (content : ByteArray) :
    (t.write? p content = none ∧ u.write? p content = none) ∨
      ∃ v w, t.write? p content = some v ∧ u.write? p content = some w ∧ SameNodes v w := by
  have directories := same.sameDirectories
  by_cases possible : ∃ a, t.locate? p = some a ∧ ¬ t.isDirectoryAt a
  · obtain ⟨a, located, other⟩ := possible
    have located' : u.locate? p = some a := (directories.locate? p).trans located
    have other' : ¬ u.isDirectoryAt a := by rwa [directories.directory]
    refine Or.inr ⟨_, _, write?_eq_some located other content, write?_eq_some located' other' content,
      same.working, fun x => ?_⟩
    rw [node?_put (ne_root_of_not_directory other), node?_put (ne_root_of_not_directory other),
      same.node]
  · have blocked (a : Place) (located : t.locate? p = some a) : t.isDirectoryAt a := by
      by_contra other
      exact possible ⟨a, located, other⟩
    refine Or.inl ⟨write?_eq_none blocked content, write?_eq_none (fun a located => ?_) content⟩
    rw [directories.directory]
    exact blocked a ((directories.locate? p).symm.trans located)

theorem sound (sound : t.Sound) : u.Sound := by
  refine ⟨⟨fun x there => ?_, ?_⟩, fun x there => ?_⟩
  · rw [same.sameDirectories.directory]
    exact sound.wellFormed.parent x (by rwa [← same.node])
  · rw [same.working, same.sameDirectories.directory]
    exact sound.wellFormed.working
  · exact sound.names x (by rwa [← same.node])

end SameNodes
end FileTree

namespace CommandLine

open FileTree (Sound Listing isDirectoryAt_iff)
open Session (Keeps lasting_keeps)

/-- The readings that an input gives. -/
inductive Yields (t : FileTree) (input : String) : List Reading → Prop
  | missing (nothing : t.lookup? ⟨input⟩ = none) : Yields t input [.of input none]
  | file {content : ByteArray} (file : t.lookup? ⟨input⟩ = some (.file content)) :
      Yields t input [.of input (some content)]
  | directory {at_ : Place} {files : List (List String × ByteArray)}
      (located : t.locate? ⟨input⟩ = some at_) (there : t.isDirectoryAt at_)
      (listing : Listing t at_ files) :
      Yields t input
        (files.map fun (names, content) => .of (Path.below ⟨input⟩ names).text (some content))

namespace Session

/-- A run writes messages to the log file of its user, if to any. -/
def LogsForUser (s : Session) : Prop := ∀ l, s.logFile = some l → l = s.environment.logFile

theorem Keeps.logsForUser {s t : Session} (keeps : s.Keeps t) (usual : s.LogsForUser) :
    t.LogsForUser := by
  intro l logFile
  rw [keeps.logFile] at logFile
  rw [usual l logFile, Environment.logFile, Environment.logFile, Environment.directory,
    Environment.directory, keeps.environment]

theorem isFileName_log : IsFileName "plugdesc.log" := by decide

/-- The log file stands in a directory under its own name. -/
theorem LogsAt.shape {s : Session} (usual : s.LogsForUser) (wf : s.files.WellFormed) {x : Place}
    (logs : s.LogsAt x) : ∃ y, s.files.isDirectoryAt y ∧ x = y ++ ["plugdesc.log"] := by
  obtain ⟨l, logFile, located, _⟩ := logs
  obtain rfl := usual l logFile
  have leads := FileTree.follow_of_locate? located
  have parent := wf.follow_parent (wf.start _) leads
  have way := FileTree.follow_eq_walk leads
  rw [Environment.logFile, FileTree.walk_join s.environment.directory_filled isFileName_log] at way
  rw [way, List.dropLast_concat] at parent
  exact ⟨_, parent, way⟩

theorem LogsAt.not_snapshot {s : Session} (usual : s.LogsForUser) (wf : s.files.WellFormed)
    {at_ : Place} {names : List String} (snapshot : IsSnapshotPlace names) :
    ¬ s.LogsAt (at_ ++ names) := by
  intro logs
  obtain ⟨y, _, way⟩ := logs.shape usual wf
  obtain ⟨r, last, stem, _, rfl⟩ := snapshot
  have same := congrArg List.getLast? way
  rw [List.getLast?_append, last, List.getLast?_append] at same
  have text : stem ++ ".json" = "plugdesc.log" := Option.some.inj same
  have ends := congrArg (fun t => t.toList.getLast?) text
  rw [String.toList_append, List.getLast?_append] at ends
  cases ends

/-- Messages keep a tree as it can be on a disk. -/
theorem Keeps.sound {s t : Session} (keeps : s.Keeps t) (usual : s.LogsForUser)
    (sound : s.files.Sound) : t.files.Sound := by
  have before (x : Place) (there : (t.files.node? x).isSome) :
      (s.files.node? x).isSome ∨ s.LogsAt x := by
    by_cases logs : s.LogsAt x
    · exact Or.inr logs
    · exact Or.inl (by rwa [← keeps.node x logs])
  constructor
  · refine sound.wellFormed.of_sameDirectories keeps.same fun x there => ?_
    refine (before x there).imp_right fun logs => ?_
    obtain ⟨y, directory, rfl⟩ := logs.shape usual sound.wellFormed
    rwa [List.dropLast_concat]
  · intro x there r part
    rcases before x there with found | logs
    · exact sound.names x found r part
    · obtain ⟨y, directory, rfl⟩ := logs.shape usual sound.wellFormed
      rcases List.mem_append.1 part with above | last
      · exact sound.names y (by rw [isDirectoryAt_iff.1 directory]; rfl) r above
      · exact List.mem_singleton.1 last ▸ isFileName_log

end Session

/-- All paths of files below a directory can be used: they are short enough. -/
def HasUsablePaths (t : FileTree) (p : Path) : Prop :=
  ∀ at_ names content, t.locate? p = some at_ → t.node? (at_ ++ names) = some (.file content) →
    FileTree.isUsable (p.below names)

/-- Whether all paths can be used can be told from the entries. -/
theorem hasUsablePaths_of_entries {t : FileTree} {p : Path} {at_ : Place}
    (located : t.locate? p = some at_)
    (usable : ∀ e ∈ t.nodes.entries, at_ <+: e.1 →
      FileTree.isUsable (p.below (e.1.drop at_.length))) : HasUsablePaths t p := by
  intro at_' names content located' node
  obtain rfl := Option.some.inj (located.symm.trans located')
  unfold FileTree.node? at node
  split at node
  · cases node
  · have path := usable _ (OrderedMap.mem_entries_iff.2 node) (List.prefix_append ..)
    rwa [List.drop_left] at path

/-- The input is the log file of the run. -/
def Session.IsLogInput (s : Session) (input : String) : Prop :=
  ∃ x, s.files.locate? ⟨input⟩ = some x ∧ s.LogsAt x

/-- What an input gives in a run, after some other readings. It is what the input holds in the beginning, but
for the log file: there every reading that succeeded before has left its line. -/
structure Gives (s : Session) (before : List Reading) (input : String) (part : List Reading) : Prop where
  apart : ¬ s.IsLogInput input → Yields s.files input part
  log : s.IsLogInput input → (∀ r ∈ before, Succeeds r.result) →
    part = [.of input (before.foldl (noted s.time) (s.files.read? ⟨input⟩))]

/-- What several inputs give, one after the other. -/
inductive Given (s : Session) : List Reading → List String → List Reading → Prop
  | nil {before : List Reading} : Given s before [] []
  | cons {before part rest : List Reading} {input : String} {inputs : List String}
      (gives : Gives s before input part) (later : Given s (before ++ part) inputs rest) :
      Given s before (input :: inputs) (part ++ rest)

section

variable {s t : Session} {input : String}

theorem readInput_file (named : input ≠ standardInput) (file : ¬ s.files.isDirectory ⟨input⟩) :
    ComesTo s (readInput s input) [.of input (s.files.read? ⟨input⟩)] := by
  unfold readInput
  dsimp only
  rw [if_neg named, if_neg file]
  cases found : s.files.lookup? ⟨input⟩ with
  | none =>
    have nothing : ¬ s.files.isThere ⟨input⟩ := by simp [FileTree.isThere, found]
    rw [if_neg nothing, FileTree.read?, found]
    exact ⟨rfl, fun _ => s.notes_failure input _⟩
  | some n =>
    have there : s.files.isThere ⟨input⟩ := by simp [FileTree.isThere, found]
    cases n with
    | directory => exact (file (by simp [FileTree.isDirectory, found])).elim
    | file content =>
      have read : s.files.read? ⟨input⟩ = some content := by rw [FileTree.read?, found]
      rw [if_pos there, read]
      exact readSnapshotFile_comesTo read

theorem isDirectory_iff {t : FileTree} {p : Path} :
    t.isDirectory p ↔ ∃ at_, t.locate? p = some at_ ∧ t.isDirectoryAt at_ := by
  simp [FileTree.isDirectory, FileTree.lookup?, isDirectoryAt_iff, Option.bind_eq_some_iff]

variable (usual : s.LogsForUser) (sound : s.files.Sound) (keeps : s.Keeps t)

include usual sound keeps

/-- A listing stays the same in a run. -/
theorem listing_before {at_ : Place} {files : List (List String × ByteArray)}
    (listing : Listing t.files at_ files) : Listing s.files at_ files := by
  refine ⟨listing.ascending, fun names content => (listing.mem names content).trans ?_⟩
  refine and_congr_left fun snapshot => ?_
  rw [keeps.node _ (Session.LogsAt.not_snapshot usual sound.wellFormed snapshot)]

theorem readInput_directory (named : input ≠ standardInput)
    (usable : HasUsablePaths s.files ⟨input⟩) {at_ : Place}
    (located : s.files.locate? ⟨input⟩ = some at_) (there : s.files.isDirectoryAt at_) :
    ∃ part, Yields s.files input part ∧ ComesTo t (readInput t input) part := by
  have located' : t.files.locate? ⟨input⟩ = some at_ := (keeps.same.locate? _).trans located
  have there' : t.files.isDirectoryAt at_ := by rwa [keeps.same.directory]
  obtain ⟨files, listing', paths⟩ := snapshotFiles_eq (keeps.sound usual sound) located' there'
  have listing := listing_before usual sound keeps listing'
  have filled := filled_of_locate? located
  have found : ∀ f ∈ files.map (fun f => ((Path.mk input).below f.1, f.2)),
      ∀ u : Session, t.Keeps u → u.files.read? f.1 = some f.2 := by
    intro f member u later
    obtain ⟨⟨names, content⟩, among, rfl⟩ := List.mem_map.1 member
    obtain ⟨node, snapshot⟩ := (listing.mem names content).1 among
    have valid : ∀ r ∈ names, IsFileName r := fun r part =>
      sound.names _ (by rw [node]; rfl) r (List.mem_append_right _ part)
    have leads := FileTree.follow_below filled sound.wellFormed valid
      (FileTree.follow_of_locate? located) (by rw [node]; rfl)
    have place : s.files.locate? ((Path.mk input).below names) = some (at_ ++ names) := by
      rw [FileTree.locate?, if_pos (usable at_ names content located node), leads]
    have keeps' := keeps.trans later
    refine FileTree.read?_eq_some ((keeps'.same.locate? _).trans place) ?_
    rw [keeps'.node _ (Session.LogsAt.not_snapshot usual sound.wellFormed snapshot), node]
  refine ⟨_, .directory located there listing, ?_⟩
  have comes := readSnapshotFiles_comesTo found
  rw [List.map_map, List.map_map] at comes
  unfold readInput
  dsimp only
  rw [if_neg named, if_pos (isDirectory_iff.2 ⟨at_, located', there'⟩), paths]
  exact comes

theorem readInput_gives (named : input ≠ standardInput) (usable : HasUsablePaths s.files ⟨input⟩)
    {before : List Reading} (notes : (∀ r ∈ before, Succeeds r.result) → s.Notes t before) :
    ∃ part, Gives s before input part ∧ ComesTo t (readInput t input) part := by
  by_cases directory : s.files.isDirectory ⟨input⟩
  · obtain ⟨at_, located, there⟩ := isDirectory_iff.1 directory
    obtain ⟨part, yields, comes⟩ :=
      readInput_directory usual sound keeps named usable located there
    refine ⟨part, ⟨fun _ => yields, fun log => ?_⟩, comes⟩
    obtain ⟨x, located', _, _, _, other⟩ := log
    obtain rfl := Option.some.inj (located.symm.trans located')
    exact (other there).elim
  · have file : ¬ t.files.isDirectory ⟨input⟩ := by
      rw [isDirectory_iff] at directory ⊢
      simpa only [keeps.same.locate?, keeps.same.directory] using directory
    refine ⟨_, ⟨fun apart => ?_, fun log succeed => ?_⟩, readInput_file named file⟩
    · have same := keeps.lookup? fun x located at_ => apart ⟨x, located, at_⟩
      rw [FileTree.read?, same]
      cases found : s.files.lookup? ⟨input⟩ with
      | none => exact .missing found
      | some n =>
        cases n with
        | directory => exact (directory (by simp [FileTree.isDirectory, found])).elim
        | file content => exact .file found
    · obtain ⟨x, located, at_⟩ := log
      rw [(notes succeed).held _ x located at_]

omit keeps in
theorem readInputs_gives {inputs : List String} (named : standardInput ∉ inputs)
    (usable : ∀ input ∈ inputs, HasUsablePaths s.files ⟨input⟩) (keeps : s.Keeps t)
    {before : List Reading} (notes : (∀ r ∈ before, Succeeds r.result) → s.Notes t before) :
    ∃ readings, Given s before inputs readings ∧ ComesTo t (readInputs t inputs) readings := by
  induction inputs generalizing t before with
  | nil => exact ⟨[], .nil, rfl, fun _ => Session.Notes.refl t⟩
  | cons input inputs ih =>
    rw [List.mem_cons, not_or] at named
    obtain ⟨part, gives, comes⟩ := readInput_gives usual sound keeps (Ne.symm named.1)
      (usable input (List.mem_cons_self ..)) notes
    obtain ⟨rest, later, comes'⟩ := ih named.2
      (fun input member => usable input (List.mem_cons_of_mem _ member))
      (keeps.trans (lasting_keeps.readInput t input)) fun succeed => by
        rw [List.forall_mem_append] at succeed
        exact (notes succeed.1).trans (comes.notes succeed.2)
    rw [readInputs_cons]
    exact ⟨part ++ rest, .cons gives later, comes.andThen comes'⟩

end

section

variable {s s' : Session}

/-- Two states of a run that differ only in the order in which their trees hold the files. -/
def Twin (s s' : Session) : Prop := ∃ u, s.files.SameNodes u ∧ s' = { s with files := u }

/-- Two readings that lead to such states and come to the same. -/
def SameReading (r r' : Session × Except InputFault Snapshot) : Prop :=
  Twin r.1 r'.1 ∧ r'.2 = r.2

theorem Twin.log (twin : Twin s s') (line : String) : Twin (s.log line) (s'.log line) := by
  obtain ⟨u, same, rfl⟩ := twin
  unfold Session.log
  dsimp only
  split
  · exact ⟨u, same, rfl⟩
  · next p _ =>
    rw [same.read?]
    rcases same.write? p _ with ⟨none, none'⟩ | ⟨v, w, written, written', same'⟩
    · rw [none, none']
      exact ⟨u, same, rfl⟩
    · rw [written, written']
      exact ⟨w, same', rfl⟩

theorem Twin.notifyFrom (twin : Twin s s') (level : Nat) (grade : Grade) (text : String) :
    Twin (s.notifyFrom level grade text) (s'.notifyFrom level grade text) := by
  obtain ⟨u, same, rfl⟩ := twin
  unfold Session.notifyFrom
  dsimp only
  split
  · exact ⟨u, same, rfl⟩
  · exact ⟨u, same, rfl⟩

theorem Twin.trace (twin : Twin s s') (message : String) :
    Twin (s.trace message) (s'.trace message) :=
  (twin.notifyFrom 2 .trace message).log _

theorem Twin.readSnapshot (twin : Twin s s') (origin text : String) :
    SameReading (readSnapshot s origin text) (readSnapshot s' origin text) := by
  unfold CommandLine.readSnapshot
  cases Snapshot.ofText text with
  | error why => exact ⟨twin, rfl⟩
  | ok snapshot => exact ⟨twin.trace _, rfl⟩

theorem Twin.readSnapshotFile (twin : Twin s s') (p : Path) :
    SameReading (readSnapshotFile s p) (readSnapshotFile s' p) := by
  have same : s'.files.read? p = s.files.read? p := by
    obtain ⟨u, same, rfl⟩ := twin
    exact same.read? p
  unfold CommandLine.readSnapshotFile
  rw [same]
  cases (s.files.read? p).bind String.fromUTF8? with
  | none => exact ⟨twin, rfl⟩
  | some text => exact twin.readSnapshot p.text text

theorem SameReading.andThen {first first' : Session × Except InputFault Snapshot}
    {second : Session → Session × Except InputFault Snapshot} (reading : SameReading first first')
    (next : Twin first.1 first'.1 → SameReading (second first.1) (second first'.1)) :
    SameReading (andThen first second) (andThen first' second) := by
  obtain ⟨twin, same⟩ := reading
  obtain ⟨twin', same'⟩ := next twin
  obtain ⟨t, result⟩ := first
  obtain ⟨t', result'⟩ := first'
  cases same
  cases result with
  | error e => exact ⟨twin, rfl⟩
  | ok a =>
    rw [andThen_ok, andThen_ok]
    exact ⟨twin', congrArg (Except.map (a ++ ·)) same'⟩

theorem Twin.readSnapshotFiles (twin : Twin s s') (l : List Path) :
    SameReading (readSnapshotFiles s l) (readSnapshotFiles s' l) := by
  induction l generalizing s s' with
  | nil => exact ⟨twin, rfl⟩
  | cons p l ih =>
    rw [readSnapshotFiles_cons, readSnapshotFiles_cons]
    exact (twin.readSnapshotFile p).andThen ih

/-- A listing of a directory is the same for all orders. -/
theorem snapshotFiles_same {t u : FileTree} (sound : t.Sound) (same : t.SameNodes u) {p : Path}
    (directory : t.isDirectory p) : snapshotFiles u p = snapshotFiles t p := by
  obtain ⟨at_, located, there⟩ := isDirectory_iff.1 directory
  have located' : u.locate? p = some at_ := (same.sameDirectories.locate? p).trans located
  have there' : u.isDirectoryAt at_ := by rwa [same.sameDirectories.directory]
  obtain ⟨files, listing, paths⟩ := snapshotFiles_eq sound located there
  obtain ⟨files', listing', paths'⟩ := snapshotFiles_eq (same.sound sound) located' there'
  have equal : files = files' := listing.unique listing' fun names content _ => by rw [same.node]
  rw [paths, paths', equal]

theorem Twin.readInput (twin : Twin s s') (sound : s.files.Sound) {input : String}
    (named : input ≠ standardInput) : SameReading (readInput s input) (readInput s' input) := by
  obtain ⟨u, same, rfl⟩ := twin
  have twin : Twin s { s with files := u } := ⟨u, same, rfl⟩
  unfold CommandLine.readInput
  dsimp only
  rw [if_neg named, if_neg named, same.isDirectory, same.isThere]
  split
  · next directory =>
    rw [snapshotFiles_same sound same directory]
    exact twin.readSnapshotFiles _
  · split
    · exact twin.readSnapshotFile _
    · exact ⟨twin, rfl⟩

theorem Twin.readInputs (twin : Twin s s') (usual : s.LogsForUser) (sound : s.files.Sound)
    {inputs : List String} (named : standardInput ∉ inputs) :
    SameReading (readInputs s inputs) (readInputs s' inputs) := by
  induction inputs generalizing s s' with
  | nil => exact ⟨twin, rfl⟩
  | cons input inputs ih =>
    rw [List.mem_cons, not_or] at named
    have keeps := lasting_keeps.readInput s input
    rw [readInputs_cons, readInputs_cons]
    exact (twin.readInput sound (Ne.symm named.1)).andThen fun twin' =>
      ih twin' (keeps.logsForUser usual) (keeps.sound usual sound) named.2

end

theorem loadSnapshots_result (s : Session) (inputs : List String) :
    (loadSnapshots s inputs).2 = (readInputs s inputs).2 := by
  unfold loadSnapshots
  generalize readInputs s inputs = run
  obtain ⟨t, result⟩ := run
  cases result <;> rfl

/-- Inputs are read in the order in which they are named, a directory in the order of the names below
it, and the first that cannot be read decides. In what order the tree holds its files does not
matter. -/
theorem loadSnapshots_gives {s : Session} {inputs : List String} (usual : s.LogsForUser)
    (sound : s.files.Sound) (named : standardInput ∉ inputs)
    (usable : ∀ input ∈ inputs, HasUsablePaths s.files ⟨input⟩) :
    (∃ readings, Given s [] inputs readings ∧
      (∀ found, (loadSnapshots s inputs).2 = .ok found ↔ ∃ read : List Snapshot,
        readings.map Reading.result = read.map .ok ∧
          found.declarations = read.flatMap (·.declarations)) ∧
      ∀ e, (loadSnapshots s inputs).2 = .error e ↔
        ∃ (read : List Snapshot) (rest : List (Except InputFault Snapshot)),
          readings.map Reading.result = read.map .ok ++ .error e :: rest) ∧
    ∀ u, s.files.SameNodes u →
      (loadSnapshots { s with files := u } inputs).2 = (loadSnapshots s inputs).2 := by
  obtain ⟨readings, given, result, _⟩ := readInputs_gives usual sound named usable (Keeps.refl s)
    fun _ => Session.Notes.refl s
  refine ⟨⟨readings, given, fun found => ?_, fun e => ?_⟩, fun u same => ?_⟩
  · rw [loadSnapshots_result, result]
    exact joined_eq_ok_iff
  · rw [loadSnapshots_result, result]
    exact joined_eq_error_iff
  · have twin : Twin s { s with files := u } := ⟨u, same, rfl⟩
    rw [loadSnapshots_result, loadSnapshots_result]
    exact (twin.readInputs usual sound named).2

/-- A declaration that shows where it was read. -/
def shelved (name : String) : Declaration :=
  { qualifiedName := name, kind := .classType, enclosing := .package "" }

def shelvedFile (name : String) : FileNode :=
  .file ("[[[\"" ++ name ++ "\",\"class\",\x7b\"package\":\"\"\x7d]]]").toUTF8

/-- A directory with snapshots, with files whose names are not those of snapshots and with the log
file of the run, and a file beside it. -/
def shelf : FileTree where
  nodes := .ofList
    [(["d"], .directory), (["d", "a-.json"], shelvedFile "B"), (["d", ".json"], .file .empty),
      (["d", "x.JSON"], .file .empty), (["d", "z.json"], .directory),
      (["d", "z.json", "y.json"], shelvedFile "C"), (["d", "a"], .directory),
      (["d", "a", "x.json"], shelvedFile "A"), (["d", ".config"], .directory),
      (["d", ".config", "plugdesc"], .directory), (["e"], shelvedFile "D")]

def Session.reader : Session where
  files := shelf
  environment := { home := ⟨"/d"⟩ }
  time := ⟨2024, 1, 2, 3, 4, 5⟩
  logFile := some ⟨"/d/.config/plugdesc/plugdesc.log"⟩

theorem loadSnapshots_gives_shelf :
    Session.reader.LogsForUser ∧ shelf.Sound ∧ standardInput ∉ ["d", "e"] ∧
      (∀ input ∈ ["d", "e"], HasUsablePaths shelf ⟨input⟩) ∧
      (loadSnapshots .reader ["d", "e"]).2 =
        .ok { declarations := ["A", "B", "C", "D"].map shelved } ∧
      ∃ readings, Given .reader [] ["d", "e"] readings ∧ ∃ read : List Snapshot,
        readings.map Reading.result = read.map .ok ∧
          ["A", "B", "C", "D"].map shelved = read.flatMap (·.declarations) := by
  have usual : Session.reader.LogsForUser := by
    intro l logFile
    obtain rfl := Option.some.inj logFile
    decide
  have sound : shelf.Sound :=
    FileTree.sound_of_entries (by decide +kernel) (by decide) (by decide +kernel)
  have named : standardInput ∉ ["d", "e"] := by decide
  have result : (loadSnapshots .reader ["d", "e"]).2 =
      .ok { declarations := ["A", "B", "C", "D"].map shelved } := by decide +kernel
  have usable : ∀ input ∈ ["d", "e"], HasUsablePaths shelf ⟨input⟩ := by
    have directory : HasUsablePaths shelf ⟨"d"⟩ :=
      hasUsablePaths_of_entries (by decide +kernel : shelf.locate? ⟨"d"⟩ = some ["d"]) (by decide +kernel)
    have file : HasUsablePaths shelf ⟨"e"⟩ :=
      hasUsablePaths_of_entries (by decide +kernel : shelf.locate? ⟨"e"⟩ = some ["e"]) (by decide +kernel)
    simp [directory, file]
  obtain ⟨⟨readings, given, success, _⟩, _⟩ := loadSnapshots_gives usual sound named usable
  exact ⟨usual, sound, named, usable, result, readings, given, (success _).1 result⟩

/-- The log file as an input. -/
def logInput : String := "d/.config/plugdesc/plugdesc.log"

/-- A run whose log file holds a snapshot. -/
def Session.rereader : Session :=
  { Session.reader with
    files := shelf.put ["d", ".config", "plugdesc", "plugdesc.log"] (shelvedFile "L") }

/-- Each of two inputs can be read by itself, and both together cannot: reading the first one writes to the
log file, which is the second. In the same way it makes a log file that was missing. -/
theorem loadSnapshots_grows_log :
    Session.rereader.files.Sound ∧
      (loadSnapshots .rereader ["e"]).2 = .ok { declarations := [shelved "D"] } ∧
      (loadSnapshots .rereader [logInput]).2 = .ok { declarations := [shelved "L"] } ∧
      (loadSnapshots .rereader ["e", logInput]).2 = .error (.invalid logInput .malformed) ∧
      (loadSnapshots .reader [logInput]).2 = .error (.missing logInput) ∧
      (loadSnapshots .reader ["e", logInput]).2 =
        .error (.invalid logInput (.unsuitable (.kind (.integer 2024) "a sequence"))) := by
  have sound : Session.rereader.files.Sound :=
    FileTree.sound_of_entries (by decide +kernel) (by decide) (by decide +kernel)
  refine ⟨sound, ?_, ?_, ?_, ?_, ?_⟩ <;> decide +kernel

end CommandLine
end PluginDescriptor
