import Mathlib.Data.List.Infix
import PluginDescriptor.Proofs.Actions
import PluginDescriptor.Proofs.Below

namespace PluginDescriptor

namespace FileTree

/-- The path of a file leads through places above its directory only, unless it has a step up. -/
theorem IsAbove.of_join {t : FileTree} {p : Path} {s : String} {x : Place} (filled : p.text ≠ "")
    (name : IsFileName s) (level : ".." ∉ p.segments) (some : p.segments.filterMap Path.step? ≠ [])
    (above : t.IsAbove (p.join ⟨s⟩) x) : x <+: (t.start p).walk p.segments := by
  obtain ⟨parent, m, shape, ⟨r, within⟩, rfl⟩ := above
  obtain ⟨front, named, same⟩ := Path.join_named filled name
  obtain ⟨parent', shape', -, steps, absolute⟩ := Path.parent?_of_named named
  obtain rfl := Option.some.inj (shape.symm.trans shape')
  rw [same] at steps
  have start : t.start parent = t.start p := by
    have text : parent.text ≠ "" := by
      intro none
      have no : parent.segments.filterMap Path.step? = [] := by rw [Path.segments, none]; rfl
      exact some (steps.symm.trans no)
    rw [FileTree.start, absolute text, Path.join_isAbsolute filled name]
    rfl
  have level' : ".." ∉ parent.segments := by
    intro up
    have among : PathStep.up ∈ parent.segments.filterMap Path.step? :=
      List.mem_filterMap.2 ⟨"..", up, Path.step?_eq_up.2 rfl⟩
    rw [steps] at among
    obtain ⟨s, member, step⟩ := List.mem_filterMap.1 among
    exact level (Path.step?_eq_up.1 step ▸ member)
  have way : (t.start p).walk p.segments = ((t.start p).walk m).walk r := by
    rw [← walk_append, within, Place.walk_eq_foldl, Place.walk_eq_foldl, steps]
  rw [start, way]
  refine prefix_walk fun up => level' ?_
  rw [← within]
  exact List.mem_append_right _ up

/-- In the place of a file that can be made, but is not there, nothing else is. -/
theorem IsWritable.node?_of_missing {t : FileTree} {p : Path} (writable : t.IsWritable p)
    (wf : t.WellFormed) (level : ".." ∉ p.segments) (missing : ¬ t.isThere p) :
    t.node? ((t.start p).walk p.segments) = none := by
  obtain ⟨u, written⟩ := Option.isSome_iff_exists.1 writable.2
  obtain ⟨q, located, -⟩ := write?_eq_some_iff.1 written
  have more := extends_makeParents t p
  have found := follow_of_locate? located
  rw [start_eq more.working] at found
  obtain rfl := follow_eq_walk found
  rcases more.node ((t.start p).walk p.segments) with same | ⟨nothing, -⟩
  · cases before : t.locate? p with
    | some x =>
      have here := eq_walk_of_locate? before
      rw [isThere, lookup?, before, Option.bind_some, here] at missing
      simpa using missing
    | none =>
      -- Then a directory above the file is missing.
      have lost : t.follow (t.start p) p.segments = none := by
        unfold locate? at before located
        split at located
        · next usable => rwa [if_pos usable] at before
        · cases located
      have nowhere := node?_of_follow_none wf (climbs_of_not_mem level) (wf.start p) lost found same []
      rwa [List.append_nil] at nowhere
  · exact nothing

end FileTree

namespace Settings

theorem load_congr {t u : FileTree} {p : Path} (same : u.lookup? p = t.lookup? p) :
    load u p = load t p := by
  unfold load FileTree.isThere FileTree.read?
  rw [same]

/-- A change of a file that can be written leaves everything as it is or writes the file. -/
theorem change_cases {s : Settings} {t : FileTree} {p : Path} (writable : t.IsWritable p)
    (loaded : load t p = .ok s) (key v : String) :
    key ∉ Setting.all.map Setting.name ∧ (change t p key v).1 = t ∨
      (change t p key v).1.isThere p ∧
        (change t p key v).1.workingDirectory = t.workingDirectory ∧
        ∀ x, t.isDirectoryAt x → (change t p key v).1.isDirectoryAt x := by
  rw [change_of_load loaded]
  by_cases known : key ∈ Setting.all.map Setting.name
  · right
    obtain ⟨k, -, rfl⟩ := List.mem_map.1 known
    obtain ⟨u, saved, -⟩ := exists_save writable (s.set k v)
    simp only [Setting.ofName?_name, saved]
    have written := (save_eq_ok saved).2
    have read := FileTree.read?_of_write? written
    obtain ⟨x, located, file⟩ := FileTree.exists_of_read? read
    obtain ⟨a, -, other, rfl⟩ := FileTree.write?_eq_some_iff.1 written
    have same := FileTree.sameDirectories_put other (s.set k v).toToml.toUTF8
    have more := FileTree.extends_makeParents t p
    refine ⟨?_, same.working.trans more.working, fun x there => ?_⟩
    · rw [FileTree.isThere, FileTree.lookup?, located, Option.bind_some, file]
      rfl
    · rw [same.directory]
      exact more.directory there
  · left
    rw [Setting.ofName?_eq_none known]
    exact ⟨known, rfl⟩

theorem change_of_unknown {key : String} (unknown : key ∉ Setting.all.map Setting.name) (t : FileTree)
    (p : Path) (v : String) : (change t p key v).1 = t := by
  cases loaded : load t p with
  | error e => rw [change_of_error loaded]
  | ok s => rw [change_of_load loaded, Setting.ofName?_eq_none unknown]

end Settings

namespace CommandLine

namespace Session

open FileTree (isDirectoryAt_iff LeavesFree)

/-- The place that the path of the settings file names. -/
def settingsPlace (s : Session) : Place :=
  (s.files.start s.environment.settingsFile).walk s.environment.settingsFile.segments

/-- The log file stays clear of the settings file: neither is it the same file nor does the path of the
settings file lead through it. -/
structure SparesSettings (s : Session) : Prop where
  file : ¬ s.IsLogPlace s.settingsPlace
  above : ∀ x, s.files.IsAbove s.environment.settingsFile x → s.IsLogPlace x → s.files.isDirectoryAt x
  /-- If no settings file is there, nothing else is in its place, and it is none of the directories that are
  made for the log file. -/
  free : ¬ s.files.isThere s.environment.settingsFile →
    s.files.node? s.settingsPlace = none ∧ ¬ s.IsOnWayToLog s.settingsPlace

/-- The condition in terms of finitely many places. -/
theorem sparesSettings_iff (s : Session) : s.SparesSettings ↔
    s.settingsPlace ≠ (s.files.start s.environment.logFile).walk s.environment.logFile.segments ∧
      (∀ parent ∈ s.environment.settingsFile.parent?, ∀ m ∈ parent.segments.inits,
        (s.files.start parent).walk m =
            (s.files.start s.environment.logFile).walk s.environment.logFile.segments →
          s.files.isDirectoryAt ((s.files.start parent).walk m)) ∧
      (¬ s.files.isThere s.environment.settingsFile → s.files.node? s.settingsPlace = none ∧
        ∀ m ∈ s.environment.directory.segments.inits,
          s.settingsPlace ≠ (s.files.start s.environment.directory).walk m) := by
  constructor
  · intro spares
    refine ⟨spares.file, fun parent shape m within log => ?_, fun missing => ?_⟩
    · exact spares.above _ ⟨parent, m, shape, (List.mem_inits ..).1 within, rfl⟩ log
    · obtain ⟨nothing, aside⟩ := spares.free missing
      exact ⟨nothing, fun m within way => aside ⟨m, (List.mem_inits ..).1 within, way⟩⟩
  · rintro ⟨file, above, free⟩
    refine ⟨file, fun x passes log => ?_, fun missing => ?_⟩
    · obtain ⟨parent, m, shape, within, rfl⟩ := passes
      exact above parent shape m ((List.mem_inits ..).2 within) log
    · obtain ⟨nothing, aside⟩ := free missing
      exact ⟨nothing, fun ⟨m, within, way⟩ => aside m ((List.mem_inits ..).2 within) way⟩

instance (s : Session) : Decidable s.SparesSettings := decidable_of_iff' _ s.sparesSettings_iff

/-- In the usual place the settings file is clear of the log file, if the path to both has no step up. -/
theorem sparesSettings_usual {s : Session} (wf : s.files.WellFormed)
    (usual : s.environment.settingsPath = none) (level : ".." ∉ s.environment.directory.segments)
    (writable : s.files.IsWritable s.environment.settingsFile) : s.SparesSettings := by
  have filled := s.environment.directory_filled
  have isName : IsFileName "plugdesc.toml" := by decide
  have isName' : IsFileName "plugdesc.log" := by decide
  have path : s.environment.settingsFile = s.environment.directory.join ⟨"plugdesc.toml"⟩ := by
    simp [Environment.settingsFile, usual]
  have place : s.settingsPlace =
      (s.files.start s.environment.directory).walk s.environment.directory.segments ++ ["plugdesc.toml"] := by
    rw [settingsPlace, path]
    exact FileTree.walk_join filled isName
  have logPlace {x : Place} (log : s.IsLogPlace x) : x =
      (s.files.start s.environment.directory).walk s.environment.directory.segments ++ ["plugdesc.log"] :=
    log.trans (FileTree.walk_join filled isName')
  have not_above {x y : Place} {n : String} (above : x <+: y) : x ≠ y ++ [n] := by
    rintro rfl
    simpa using above.length_le
  refine ⟨fun log => ?_, fun x passes log => ?_, fun missing => ⟨?_, ?_⟩⟩
  · have same := List.append_cancel_left (place.symm.trans (logPlace log))
    simp at same
  · rw [path] at passes
    have steps : s.environment.directory.segments.filterMap Path.step? ≠ [] := by
      have last : IsFileName "plugdesc" := by decide
      obtain ⟨front, segments, -⟩ := Path.join_segments
        (Path.join_filled (by decide) : (s.environment.home.join ⟨".config"⟩).text ≠ "") last
      rw [Environment.directory, segments, List.filterMap_append]
      simp [Path.step?_fileName last]
    exact (not_above (passes.of_join filled isName level steps) (logPlace log)).elim
  · have level' : ".." ∉ s.environment.settingsFile.segments := by
      obtain ⟨front, segments, -, before⟩ := Path.join_segments filled isName
      have below : ".." ∉ front := by
        rcases before with same | slash
        · rwa [← same]
        · exact fun up => level (slash ▸ List.mem_append_left _ up)
      rw [path, segments]
      simp [below]
    exact writable.node?_of_missing wf level' missing
  · rintro ⟨m, ⟨r, within⟩, way⟩
    rw [place] at way
    refine not_above ?_ way.symm
    rw [← within, FileTree.walk_append]
    refine FileTree.prefix_walk fun up => level ?_
    rw [← within]
    exact List.mem_append_right _ up

/-- There is a settings file that can be written, or room for one, and these are the settings in it. -/
structure Holds (s : Session) (settings : Settings) : Prop where
  writable : s.files.IsWritable s.environment.settingsFile
  loaded : Settings.load s.files s.environment.settingsFile = .ok settings

/-- A later state of a run in which at most the log file and the directories on the way to it are others, and
these only if there is a log file. -/
structure LogsOnly (logs : Prop) (s t : Session) : Prop where
  environment : t.environment = s.environment
  working : t.files.workingDirectory = s.files.workingDirectory
  directory : ∀ x, s.files.isDirectoryAt x → t.files.isDirectoryAt x
  node : ∀ x, t.files.node? x = s.files.node? x ∨ logs ∧ s.Touches x (t.files.node? x)

section

variable {s t : Session}

theorem settingsPlace_eq (environment : t.environment = s.environment)
    (working : t.files.workingDirectory = s.files.workingDirectory) :
    t.settingsPlace = s.settingsPlace := by
  rw [settingsPlace, settingsPlace, FileTree.start_eq working, environment]

/-- The log file stays clear of settings that are written, or that are as they were. -/
theorem SparesSettings.mono (spares : s.SparesSettings) (environment : t.environment = s.environment)
    (working : t.files.workingDirectory = s.files.workingDirectory)
    (directory : ∀ x, s.files.isDirectoryAt x → t.files.isDirectoryAt x)
    (missing : ¬ t.files.isThere s.environment.settingsFile →
      ¬ s.files.isThere s.environment.settingsFile ∧
        t.files.node? s.settingsPlace = s.files.node? s.settingsPlace) : t.SparesSettings := by
  have place := settingsPlace_eq environment working
  have logPlace (x : Place) : t.IsLogPlace x ↔ s.IsLogPlace x := by
    rw [IsLogPlace, IsLogPlace, FileTree.start_eq working, environment]
  have onWay (x : Place) : t.IsOnWayToLog x ↔ s.IsOnWayToLog x := by
    rw [IsOnWayToLog, IsOnWayToLog, FileTree.start_eq working, environment]
  have above (x : Place) : t.files.IsAbove s.environment.settingsFile x ↔
      s.files.IsAbove s.environment.settingsFile x := by
    simp only [FileTree.IsAbove, FileTree.start_eq working]
  refine ⟨?_, fun x passes log => ?_, fun nothing => ?_⟩
  · rw [place, logPlace]
    exact spares.file
  · rw [environment, above] at passes
    exact directory x (spares.above x passes ((logPlace x).1 log))
  · rw [environment] at nothing
    obtain ⟨before, same⟩ := missing nothing
    obtain ⟨empty, aside⟩ := spares.free before
    rw [place, onWay, same]
    exact ⟨empty, aside⟩

namespace LogsOnly

variable {logs : Prop} (only : s.LogsOnly logs t) (spares : logs → s.SparesSettings)

include only spares

/-- In the place of the settings file is what was there. -/
theorem settings_node : t.files.node? s.settingsPlace = s.files.node? s.settingsPlace := by
  rcases only.node s.settingsPlace with same | ⟨logging, log | ⟨nothing, -, onWay⟩⟩
  · exact same
  · exact ((spares logging).file log).elim
  · by_cases there : s.files.isThere s.environment.settingsFile
    · unfold FileTree.isThere FileTree.lookup? at there
      cases located : s.files.locate? s.environment.settingsFile with
      | none =>
        rw [located] at there
        cases there
      | some x =>
        have way : x = s.settingsPlace := FileTree.eq_walk_of_locate? located
        rw [located, Option.bind_some, way, nothing] at there
        cases there
    · exact (((spares logging).free there).2 onWay).elim

/-- The path of the settings file leads to what it led to. -/
theorem settings_lookup? : t.files.lookup? s.environment.settingsFile =
    s.files.lookup? s.environment.settingsFile := by
  have node := only.settings_node spares
  have way {u : FileTree} {x : Place} (working : u.workingDirectory = s.files.workingDirectory)
      (located : u.locate? s.environment.settingsFile = some x) : x = s.settingsPlace := by
    rw [FileTree.eq_walk_of_locate? located, settingsPlace, FileTree.start_eq working]
  unfold FileTree.lookup?
  cases before : s.files.locate? s.environment.settingsFile with
  | some x =>
    rw [FileTree.locate?_mono only.working only.directory before, Option.bind_some, Option.bind_some,
      way rfl before, node]
  | none =>
    cases after : t.files.locate? s.environment.settingsFile with
    | none => rfl
    | some x =>
      by_cases logging : logs
      · have missing : ¬ s.files.isThere s.environment.settingsFile := by
          rw [FileTree.isThere, FileTree.lookup?, before]
          exact Bool.false_ne_true
        rw [Option.bind_some, way only.working after, node, ((spares logging).free missing).1]
        rfl
      · -- Without a log file no directory comes that could lead the path anywhere.
        have same : FileTree.SameDirectories s.files t.files := by
          refine ⟨only.working, fun x => ?_⟩
          rw [FileTree.isDirectoryAt, (only.node x).resolve_right fun new => logging new.1]
          rfl
        rw [same.locate?, before] at after
        cases after

theorem holds {settings : Settings} (holds : s.Holds settings) : t.Holds settings := by
  constructor
  · rw [only.environment]
    refine holds.writable.beside only.working only.directory (fun x above nothing => ?_) fun there => ?_
    · rcases only.node x with same | ⟨logging, log | ⟨-, new, -⟩⟩
      · exact Or.inl (same.trans nothing)
      · have there := (spares logging).above x above log
        rw [isDirectoryAt_iff, nothing] at there
        cases there
      · exact Or.inr (isDirectoryAt_iff.2 new)
    · rw [isDirectoryAt_iff] at there ⊢
      exact (only.settings_node spares).symm.trans there
  · rw [only.environment, Settings.load_congr (only.settings_lookup? spares)]
    exact holds.loaded

omit spares in
theorem sparesSettings (aside : s.SparesSettings) : t.SparesSettings := by
  have lookup := only.settings_lookup? fun _ => aside
  refine aside.mono only.environment only.working only.directory fun missing => ⟨?_, ?_⟩
  · rwa [FileTree.isThere, lookup] at missing
  · exact only.settings_node fun _ => aside

end LogsOnly

theorem logsOnly_open (s : Session) (verbosity : Nat) (logToFile : Bool) :
    s.LogsOnly (logToFile = true) (s.open_ verbosity logToFile) where
  environment := open_environment s verbosity logToFile
  working := s.open_working verbosity logToFile
  directory := s.open_directory verbosity logToFile
  node := s.open_touches verbosity logToFile

/-- Messages are written to the log file. -/
theorem Keeps.logsOnly (keeps : s.Keeps t) {logs : Prop}
    (logging : ∀ p, s.logFile = some p → logs ∧ p = s.environment.logFile) : s.LogsOnly logs t := by
  refine ⟨keeps.environment, keeps.same.working, fun x there => ?_, fun x => ?_⟩
  · rwa [keeps.same.directory]
  · by_cases log : s.LogsAt x
    · obtain ⟨p, logFile, located, -⟩ := log
      obtain ⟨allowed, rfl⟩ := logging p logFile
      exact Or.inr ⟨allowed, Or.inl (FileTree.eq_walk_of_locate? located)⟩
    · exact Or.inl (keeps.node x log)

end

end Session

end CommandLine
end PluginDescriptor
