import PluginDescriptor.Proofs.SettingsPlace

namespace PluginDescriptor.CommandLine

/-- A run of the program by which its user gives a value to a setting. -/
structure Assignment where
  args : List String
  chatter : Chatter
  key : String
  value : String
  time : Timestamp
  parsed : parse args = some (.run chatter (.settings (.assign key value)))

namespace Assignment

/-- The run writes a log file. -/
def Logs (r : Assignment) : Prop := r.chatter.noLogFile = false

/-- The state in which the run starts. Of an earlier run the files are left. -/
def start (r : Assignment) (s : Session) : Session :=
  { files := s.files, environment := s.environment, time := r.time }

def after (s : Session) (r : Assignment) : Session := (run (r.start s) r.args).1

/-- The state after runs one after the other. -/
def afterAll (s : Session) (runs : List Assignment) : Session := runs.foldl after s

/-- The settings to which the runs give values, and the values. -/
def changes (runs : List Assignment) : List (String × String) := runs.map fun r => (r.key, r.value)

variable (r : Assignment) (s : Session)

/-- The state in which the run finds the settings file. -/
def opened : Session := (r.start s).open_ r.chatter.level (!r.chatter.noLogFile)

/-- The state after the settings were changed, before the user is told. -/
def changed : Session :=
  { r.opened s with
    files := (Settings.change (r.opened s).files (r.opened s).environment.settingsFile r.key r.value).1 }

theorem logsOnly_opened : s.LogsOnly r.Logs (r.opened s) := by
  have only := Session.logsOnly_open (r.start s) r.chatter.level (!r.chatter.noLogFile)
  rw [Bool.not_eq_true'] at only
  exact ⟨only.environment, only.working, only.directory, only.node⟩

theorem logsOnly_after : (r.changed s).LogsOnly r.Logs (after s r) := by
  have keeps : (r.changed s).Keeps (after s r) := by
    unfold after changed
    rw [run_settings r.parsed]
    unfold runSettings opened
    dsimp only
    split
    · next files changed =>
      rw [changed]
      exact Session.lasting_keeps.success _ _
    · next files e failed =>
      rw [failed]
      exact Session.keeps_error _ _
  refine keeps.logsOnly fun p logFile => ?_
  obtain ⟨logging, same⟩ := Session.open_logFile (s := r.start s) rfl logFile
  rw [Bool.not_eq_true'] at logging
  exact ⟨logging, same.trans (congrArg Environment.logFile (r.logsOnly_opened s).environment.symm)⟩

variable {r s}

theorem sparesSettings_changed {settings : Settings} (holds : (r.opened s).Holds settings)
    (spares : (r.opened s).SparesSettings) : (r.changed s).SparesSettings := by
  have cases_ := Settings.change_cases holds.writable holds.loaded r.key r.value
  rcases cases_ with ⟨-, same⟩ | ⟨there, working, directory⟩
  · have unchanged : r.changed s = r.opened s := by rw [changed, same]
    rwa [unchanged]
  · exact spares.mono rfl working directory fun missing => (missing there).elim

/-- What one run does to the settings. -/
theorem after_holds {settings : Settings} (holds : s.Holds settings)
    (spares : r.Logs → s.SparesSettings) :
    (after s r).Holds (settings.assigned r.key r.value) ∧ (s.SparesSettings → (after s r).SparesSettings) := by
  have opened := r.logsOnly_opened s
  have holds' := opened.holds spares holds
  obtain ⟨writable, loaded⟩ := Settings.change_keeps holds'.writable holds'.loaded r.key r.value
  have aside (aside : s.SparesSettings) : (r.changed s).SparesSettings :=
    sparesSettings_changed holds' (opened.sparesSettings aside)
  have told := r.logsOnly_after s
  exact ⟨told.holds (fun logging => aside (spares logging)) ⟨writable, loaded⟩,
    fun spares => told.sparesSettings (aside spares)⟩

theorem environment_after : (after s r).environment = s.environment :=
  (r.logsOnly_after s).environment.trans (r.logsOnly_opened s).environment

/-- A run that changes no settings leaves their file as it was. -/
theorem after_lookup? (unchanged : r.changed s = r.opened s) (spares : r.Logs → s.SparesSettings) :
    (after s r).files.lookup? s.environment.settingsFile =
        s.files.lookup? s.environment.settingsFile ∧
      (s.SparesSettings → (after s r).SparesSettings) := by
  have opened := r.logsOnly_opened s
  have told := r.logsOnly_after s
  rw [unchanged] at told
  have later := told.settings_lookup? fun logging => opened.sparesSettings (spares logging)
  rw [opened.environment, opened.settings_lookup? spares] at later
  exact ⟨later, fun aside => told.sparesSettings (opened.sparesSettings aside)⟩

theorem changed_of_unknown (unknown : r.key ∉ Setting.all.map Setting.name) :
    r.changed s = r.opened s := by
  rw [changed, Settings.change_of_unknown unknown]

theorem changed_of_undescribed {content : ByteArray}
    (found : s.files.read? s.environment.settingsFile = some content)
    (undescribed : Settings.described? content = none) (spares : r.Logs → s.SparesSettings) :
    r.changed s = r.opened s := by
  have opened := r.logsOnly_opened s
  have found' : (r.opened s).files.read? (r.opened s).environment.settingsFile = some content := by
    rw [FileTree.read?, opened.environment, opened.settings_lookup? spares]
    exact found
  obtain ⟨e, failed⟩ := Settings.load_of_undescribed found' undescribed
  rw [changed, Settings.change_of_error failed]

theorem afterAll_concat (s : Session) (runs : List Assignment) (r : Assignment) :
    afterAll s (runs ++ [r]) = after (afterAll s runs) r := List.foldl_concat ..

theorem environment_afterAll (s : Session) (runs : List Assignment) :
    (afterAll s runs).environment = s.environment := by
  induction runs using List.reverseRecOn with
  | nil => rfl
  | append_singleton runs r ih => rw [afterAll_concat, environment_after, ih]

theorem afterAll_holds {settings : Settings} (holds : s.Holds settings) (runs : List Assignment)
    (spares : ∀ r ∈ runs, r.Logs → s.SparesSettings) :
    (∃ settings', (afterAll s runs).Holds settings' ∧ settings.Follows (changes runs) settings') ∧
      (s.SparesSettings → (afterAll s runs).SparesSettings) := by
  induction runs using List.reverseRecOn with
  | nil => exact ⟨⟨settings, holds, fun _ => rfl⟩, id⟩
  | append_singleton runs r ih =>
    rw [List.forall_mem_append, List.forall_mem_singleton] at spares
    obtain ⟨⟨settings', holds', follows⟩, aside⟩ := ih spares.1
    obtain ⟨holds'', aside'⟩ := after_holds holds' fun logging => aside (spares.2 logging)
    rw [afterAll_concat]
    refine ⟨⟨_, holds'', ?_⟩, fun clear => aside' (aside clear)⟩
    have more := follows.concat r.key r.value
    rwa [changes, List.map_append]

theorem afterAll_read? {content : ByteArray}
    (found : s.files.read? s.environment.settingsFile = some content)
    (undescribed : Settings.described? content = none) (runs : List Assignment)
    (spares : ∀ r ∈ runs, r.Logs → s.SparesSettings) :
    (afterAll s runs).files.read? s.environment.settingsFile = some content ∧
      (s.SparesSettings → (afterAll s runs).SparesSettings) := by
  induction runs using List.reverseRecOn with
  | nil => exact ⟨found, id⟩
  | append_singleton runs r ih =>
    rw [List.forall_mem_append, List.forall_mem_singleton] at spares
    obtain ⟨found', aside⟩ := ih spares.1
    have clear (logging : r.Logs) : (afterAll s runs).SparesSettings := aside (spares.2 logging)
    rw [← environment_afterAll s runs] at found' ⊢
    obtain ⟨same, aside'⟩ := after_lookup? (changed_of_undescribed found' undescribed clear) clear
    rw [afterAll_concat]
    refine ⟨?_, fun spares => aside' (aside spares)⟩
    rw [FileTree.read?, same]
    exact found'

/-- The settings file is a map from the known keys to the values that were given to them last, run after run,
if the log file stays clear of it wherever there is one. A run that names no setting leaves the file as it
was, and so does every run if the file describes no settings. -/
theorem load_afterAll (s : Session) (runs : List Assignment)
    (spares : ∀ r ∈ runs, r.Logs → s.SparesSettings) :
    (∀ settings, s.files.IsWritable s.environment.settingsFile →
      Settings.load s.files s.environment.settingsFile = .ok settings →
      (∃ settings', Settings.load (afterAll s runs).files s.environment.settingsFile = .ok settings' ∧
        settings'.values = Settings.listing Setting.all fun k =>
          Settings.latest? (changes runs) k <|> settings.get? k) ∧
      ∀ earlier r, runs = earlier ++ [r] → r.key ∉ Setting.all.map Setting.name →
        (afterAll s runs).files.lookup? s.environment.settingsFile =
          (afterAll s earlier).files.lookup? s.environment.settingsFile) ∧
    ∀ content, s.files.read? s.environment.settingsFile = some content →
      Settings.described? content = none →
      (afterAll s runs).files.read? s.environment.settingsFile = some content := by
  refine ⟨fun settings writable loaded => ⟨?_, ?_⟩, fun content found undescribed =>
    (afterAll_read? found undescribed runs spares).1⟩
  · obtain ⟨⟨settings', holds, follows⟩, -⟩ := afterAll_holds ⟨writable, loaded⟩ runs spares
    refine ⟨settings', ?_, ?_⟩
    · rw [← environment_afterAll s runs]
      exact holds.loaded
    · have same : settings'.get? = fun k => Settings.latest? (changes runs) k <|> settings.get? k :=
        funext follows
      rw [← same]
      rfl
  · rintro earlier r rfl unknown
    rw [List.forall_mem_append, List.forall_mem_singleton] at spares
    have aside := (afterAll_holds ⟨writable, loaded⟩ earlier spares.1).2
    have kept := (after_lookup? (changed_of_unknown unknown) fun logging => aside (spares.2 logging)).1
    rw [environment_afterAll] at kept
    rw [afterAll_concat]
    exact kept

/-- A run with a log file. -/
def logged (key v : String)
    (parsed : parse ["config", "set", key, v] = some (.run {} (.settings (.assign key v))) := by
      decide +kernel) : Assignment where
  args := ["config", "set", key, v]
  chatter := {}
  key := key
  value := v
  time := ⟨2025, 1, 2, 3, 4, 5⟩
  parsed := parsed

/-- A run without one. -/
def unlogged (key v : String)
    (parsed : parse (assignArguments key v) =
      some (.run { noLogFile := true } (.settings (.assign key v))) := by decide +kernel) :
    Assignment where
  args := assignArguments key v
  chatter := { noLogFile := true }
  key := key
  value := v
  time := ⟨2025, 1, 2, 3, 4, 5⟩
  parsed := parsed

/-- A state with a user and some files. -/
def inhabited (settingsPath : Option String) (files : List (Place × FileNode)) : Session where
  files.nodes := .ofList ((["home"], .directory) :: files)
  environment := { home := ⟨"/home"⟩, settingsPath }
  time := ⟨2025, 1, 2, 3, 4, 5⟩

/-- Settings in the usual place, with a key that is no setting. -/
def handWritten : Session :=
  inhabited none [(["home", ".config"], .directory), (["home", ".config", "plugdesc"], .directory),
    (["home", ".config", "plugdesc", "plugdesc.toml"], .file "tool-id = 'a'\nother = 1\n".toUTF8)]

/-- An unknown key comes between two known ones, and one setting is given a value twice. -/
theorem load_afterAll_handWritten :
    let runs := [logged "output-dir" "'''\n", logged "output" "x", logged "tool-id" "",
      logged "output-dir" "\"\"\"\n'''\\"]
    let p := handWritten.environment.settingsFile
    (∀ r ∈ runs, r.Logs → handWritten.SparesSettings) ∧ handWritten.files.IsWritable p ∧
      Settings.load handWritten.files p = .ok { toolId := some "a" } ∧
      ∃ s, Settings.load (afterAll handWritten runs).files p = .ok s ∧
        s.values = [("output-dir", "\"\"\"\n'''\\"), ("tool-id", "")] := by
  intro runs p
  have spares : handWritten.SparesSettings := by decide +kernel
  have writable : handWritten.files.IsWritable p := by decide +kernel
  have loaded : Settings.load handWritten.files p = .ok { toolId := some "a" } := by decide +kernel
  have stored := (load_afterAll handWritten runs fun _ _ _ => spares).1 _ writable loaded
  exact ⟨fun _ _ _ => spares, writable, loaded, stored.1⟩

/-- Settings in the place of the log file. -/
def shared : Session :=
  inhabited (some "/home/.config/plugdesc/plugdesc.log")
    [(["home", ".config"], .directory), (["home", ".config", "plugdesc"], .directory),
      (["home", ".config", "plugdesc", "plugdesc.log"], .file "tool-id = 'a'\n".toUTF8)]

/-- A run that names no setting changes the file if it is the log file as well, and no settings can be loaded
any more. -/
theorem afterAll_shared :
    let p := shared.environment.settingsFile
    shared.files.IsWritable p ∧ Settings.load shared.files p = .ok { toolId := some "a" } ∧
      "nope" ∉ Setting.all.map Setting.name ∧
      (afterAll shared [logged "nope" "x"]).files.lookup? p ≠ shared.files.lookup? p ∧
      Settings.load (afterAll shared [logged "nope" "x"]).files p = .error .unreadable := by
  intro p
  refine ⟨?_, ?_, ?_, ?_, ?_⟩ <;> decide +kernel

/-- Every part of the condition is needed. A path through the log file leads nowhere as long as there is one; a
directory that is made for the log file can come in the place of the settings file, or can open a way to
settings that were out of reach. -/
theorem afterAll_unspared :
    let below := inhabited (some "/home/.config/plugdesc/plugdesc.log/p.toml") []
    let above := inhabited (some "/home/.config/plugdesc") []
    let around := inhabited (some "/home/.config/../p.toml")
      [(["home", "p.toml"], .file "tool-id = 'a'\n".toUTF8)]
    (∀ s ∈ [below, above, around], s.files.IsWritable s.environment.settingsFile ∧
        Settings.load s.files s.environment.settingsFile = .ok {}) ∧
      Settings.load (afterAll below [logged "nope" "x", unlogged "tool-id" "b"]).files
        below.environment.settingsFile = .ok {} ∧
      Settings.load (afterAll above [logged "tool-id" "b"]).files above.environment.settingsFile =
        .error .fileAccess ∧
      Settings.load (afterAll around [logged "nope" "x"]).files around.environment.settingsFile =
        .ok { toolId := some "a" } := by
  intro below above around
  refine ⟨?_, ?_, ?_, ?_⟩ <;> decide +kernel

end Assignment
end PluginDescriptor.CommandLine
