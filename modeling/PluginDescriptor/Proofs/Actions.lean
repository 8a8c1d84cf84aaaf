import PluginDescriptor.Proofs.DryRun
import PluginDescriptor.Proofs.Reporting
import PluginDescriptor.Proofs.Settings

namespace PluginDescriptor

namespace Settings

variable {t : FileTree} {p : Path} {e : SettingsFault}

/-- Why no settings can be loaded: what is there cannot be read as text, or the text is not a document in
which every setting is unset or a text. -/
inductive Unloadable (t : FileTree) (p : Path) : SettingsFault → Prop
  | unread : t.isThere p → (t.read? p).bind String.fromUTF8? = none → Unloadable t p .fileAccess
  | senseless {text : String} : (t.read? p).bind String.fromUTF8? = some text →
      ofToml? text = none → Unloadable t p .unreadable

theorem load_eq_error : load t p = .error e ↔ Unloadable t p e := by
  constructor
  · intro failed
    unfold load at failed
    split at failed
    · next there =>
      split at failed
      · next unread =>
        cases failed
        exact .unread there unread
      · next text shown =>
        split at failed
        · next senseless =>
          cases failed
          exact .senseless shown senseless
        · cases failed
    · cases failed
  · rintro (⟨there, unread⟩ | ⟨shown, senseless⟩)
    · rw [load, if_pos there, unread]
    · obtain ⟨content, found, text⟩ := Option.bind_eq_some_iff.1 shown
      rw [load_of_read? found, text, Option.elim_some, senseless, Option.elim_none]

theorem exists_load (legible : ∀ e, ¬ Unloadable t p e) : ∃ s, load t p = .ok s := by
  cases loaded : load t p with
  | error e => exact absurd (load_eq_error.1 loaded) (legible e)
  | ok s => exact ⟨s, rfl⟩

theorem save_of_not_isWritable (blocked : ¬ t.IsWritable p) (s : Settings) :
    ∃ u, s.save t p = (u, .error .fileAccess) := by
  unfold save
  cases parents : t.makeParents p with
  | mk u made =>
    cases made with
    | false => exact ⟨u, rfl⟩
    | true =>
      cases written : u.write? p s.toToml.toUTF8 with
      | none => exact ⟨u, by simp only [written]⟩
      | some w =>
        obtain ⟨a, located, other, -⟩ := FileTree.write?_eq_some_iff.1 written
        refine absurd ⟨by rw [parents], ?_⟩ blocked
        rw [parents, FileTree.write?_eq_some located other]
        rfl

end Settings

namespace CommandLine

namespace SettingsAction

/-- Why an action cannot be carried out. -/
inductive FailsWith (t : FileTree) (p : Path) : SettingsAction → SettingsFault → Prop
  | unlisted {e : SettingsFault} : Settings.Unloadable t p e → FailsWith t p .list e
  | unloaded {key v : String} {e : SettingsFault} :
      Settings.Unloadable t p e → FailsWith t p (.assign key v) e
  | unknown {key v : String} : (∀ e, ¬ Settings.Unloadable t p e) →
      key ∉ Setting.all.map Setting.name → FailsWith t p (.assign key v) (.unknownKey key)
  | unwritten {key v : String} : (∀ e, ¬ Settings.Unloadable t p e) →
      key ∈ Setting.all.map Setting.name → ¬ t.IsWritable p → FailsWith t p (.assign key v) .fileAccess

/-- What the user is told of an action that failed. -/
def complaint (e : SettingsFault) : SettingsAction → String
  | .list => "Failed to load config: " ++ e.message
  | .assign key _ => "Failed to set " ++ key ++ ": " ++ e.message
  | .locate => e.message

/-- Settings as they are listed. That there are none is said only to those who want to see more. -/
def listing (verbosity : Nat) (settings : Settings) : String :=
  "Configuration:\n" ++
    if settings.isEmpty then if verbosity > 0 then "  (empty)\n" else ""
    else String.join (settings.values.map fun (key, v) => "  " ++ key ++ ": " ++ v ++ "\n")

/-- The action was carried out between two states of a run: the settings are listed, or the setting has
its new value in the file and the others have kept theirs, or the path of the file is shown. Messages may
have been written to the log file. -/
def IsDone (s final : Session) : SettingsAction → Prop
  | .list => ∃ settings, Settings.load s.files s.environment.settingsFile = .ok settings ∧
      final.output = s.output ++ listing s.verbosity settings ∧ s.Keeps final
  | .assign key v => ∃ settings k u, Settings.load s.files s.environment.settingsFile = .ok settings ∧
      k.name = key ∧ Settings.load u s.environment.settingsFile = .ok (settings.set k v) ∧
      Session.Keeps { s with files := u } final
  | .locate => final.output = s.output ++ s.environment.settingsFile.text ++ "\n" ∧ s.Keeps final

end SettingsAction

open SettingsAction Session

section Change

variable {t : FileTree} {p : Path} {key v : String}

theorem change_of_failsWith {e : SettingsFault} (fails : (assign key v).FailsWith t p e) :
    ∃ u, Settings.change t p key v = (u, .error e) := by
  cases fails with
  | unloaded illegible => exact ⟨t, Settings.change_of_error (Settings.load_eq_error.2 illegible) key v⟩
  | unknown legible unknown =>
    obtain ⟨s, loaded⟩ := Settings.exists_load legible
    exact ⟨t, by rw [Settings.change_of_load loaded, Setting.ofName?_eq_none unknown]⟩
  | unwritten legible known blocked =>
    obtain ⟨s, loaded⟩ := Settings.exists_load legible
    obtain ⟨k, -, rfl⟩ := List.mem_map.1 known
    obtain ⟨u, unsaved⟩ := Settings.save_of_not_isWritable blocked (s.set k v)
    exact ⟨u, by simp only [Settings.change_of_load loaded, Setting.ofName?_name, unsaved]⟩

theorem change_of_not_failsWith (fine : ∀ e, ¬ (assign key v).FailsWith t p e) :
    ∃ settings k u, Settings.load t p = .ok settings ∧ k.name = key ∧
      Settings.change t p key v = (u, .ok ()) ∧ Settings.load u p = .ok (settings.set k v) := by
  have legible : ∀ e, ¬ Settings.Unloadable t p e := fun e illegible => fine e (.unloaded illegible)
  have known : key ∈ Setting.all.map Setting.name := by
    by_contra unknown
    exact fine _ (.unknown legible unknown)
  have writable : t.IsWritable p := by
    by_contra blocked
    exact fine _ (.unwritten legible known blocked)
  obtain ⟨settings, loaded⟩ := Settings.exists_load legible
  obtain ⟨k, -, rfl⟩ := List.mem_map.1 known
  obtain ⟨u, saved, -⟩ := Settings.exists_save writable (settings.set k v)
  refine ⟨settings, k, u, loaded, rfl, ?_, Settings.load_save saved⟩
  simp only [Settings.change_of_load loaded, Setting.ofName?_name, saved]

end Change

theorem error_notices (s : Session) (message : String) :
    (s.error message).notices = s.notices ++ [⟨.error, message⟩] := by
  unfold Session.error notify log
  split
  · rfl
  · dsimp only
    split <;> rfl

theorem foldl_print (l : List (String × String)) (line : String × String → String) (s : Session) :
    (l.foldl (fun s e => s.print (line e)) s) = s.print (String.join (l.map line)) := by
  induction l generalizing s with
  | nil => simp [print]
  | cons e r ih =>
    rw [List.foldl_cons, ih, List.map_cons, String.join_cons]
    simp only [print, String.append_assoc]

section Outcome

variable {s : Session} {action : SettingsAction}

theorem runSettings_of_not_failsWith
    (fine : ∀ e, ¬ action.FailsWith s.files s.environment.settingsFile e) :
    action.IsDone s (runSettings s action) ∧ Reports 0 s (runSettings s action) := by
  cases action with
  | list =>
    obtain ⟨settings, loaded⟩ := Settings.exists_load fun e illegible => fine e (.unlisted illegible)
    have shown : runSettings s .list = s.print (listing s.verbosity settings) := by
      unfold runSettings listing
      dsimp only
      rw [loaded]
      dsimp only
      by_cases empty : settings.isEmpty
      · rw [if_pos empty, if_pos empty]
        by_cases curious : s.verbosity > 0
        · rw [if_pos (show (s.print _).verbosity > 0 from curious), if_pos curious]
          simp only [print, String.append_assoc]
        · rw [if_neg (show ¬ (s.print _).verbosity > 0 from curious), if_neg curious, String.append_empty]
      · rw [if_neg empty, if_neg empty, foldl_print _ fun e => "  " ++ e.1 ++ ": " ++ e.2 ++ "\n"]
        simp only [print, String.append_assoc]
    rw [shown]
    exact ⟨⟨settings, loaded, rfl, keeps_of_same rfl rfl rfl⟩, reports_of_same rfl⟩
  | assign key v =>
    obtain ⟨settings, k, u, loaded, name, changed, stored⟩ := change_of_not_failsWith fine
    have shown : runSettings s (.assign key v) =
        ({ s with files := u } : Session).success ("Set " ++ key ++ " = " ++ v) := by
      unfold runSettings
      dsimp only
      rw [changed]
    rw [shown]
    refine ⟨⟨settings, k, u, loaded, name, stored, lasting_keeps.success _ _⟩, ?_⟩
    exact (lasting_reports.success _ _).after (reports_of_same rfl)
  | locate =>
    have silent := lasting_reports.debug s ("Known keys: " ++ Setting.names)
    have output := lasting_print.debug s ("Known keys: " ++ Setting.names)
    have kept := lasting_keeps.debug s ("Known keys: " ++ Setting.names)
    have shown : (runSettings s .locate).output =
        s.output ++ s.environment.settingsFile.text ++ "\n" := by
      unfold runSettings print
      dsimp only
      rw [output.1, String.append_assoc]
    exact ⟨⟨shown, kept.trans (keeps_of_same rfl rfl rfl)⟩, silent.before (reports_of_same rfl)⟩

theorem runSettings_of_failsWith {e : SettingsFault}
    (fails : action.FailsWith s.files s.environment.settingsFile e) :
    (runSettings s action).notices = s.notices ++ [⟨.error, action.complaint e⟩] := by
  cases action with
  | list =>
    cases fails with
    | unlisted illegible =>
      unfold runSettings
      dsimp only
      rw [Settings.load_eq_error.2 illegible]
      exact error_notices s _
  | assign key v =>
    obtain ⟨u, failed⟩ := change_of_failsWith fails
    unfold runSettings
    dsimp only
    rw [failed]
    exact error_notices _ _
  | locate => cases fails

end Outcome

theorem open_environment (s : Session) (verbosity : Nat) (logToFile : Bool) :
    (s.open_ verbosity logToFile).environment = s.environment := by
  unfold open_
  dsimp only
  split
  · split <;> rfl
  · rfl

theorem run_settings {args : List String} {chatter : Chatter} {action : SettingsAction}
    (parsed : parse args = some (.run chatter (.settings action))) (s : Session) :
    run s args = (runSettings (s.open_ chatter.level (!chatter.noLogFile)) action, 0) := by
  unfold run
  rw [parsed]

/-- An action on the settings is carried out without an error unless there is a reason why it cannot be,
and then one error tells the reason. The run exits with 0 in either case. -/
theorem run_settings_outcome {args : List String} {chatter : Chatter} {action : SettingsAction}
    (parsed : parse args = some (.run chatter (.settings action))) (s : Session) :
    let t := s.open_ chatter.level (!chatter.noLogFile)
    (run s args).2 = 0 ∧
      ((∀ e, ¬ action.FailsWith t.files s.environment.settingsFile e) →
        action.IsDone t (run s args).1 ∧ Reports 0 s (run s args).1) ∧
      ∀ e, action.FailsWith t.files s.environment.settingsFile e →
        (run s args).1.notices = t.notices ++ [⟨.error, action.complaint e⟩] ∧
          Reports 1 s (run s args).1 := by
  intro t
  have opening : Reports 0 s t := reports_open s _ _
  have environment : t.environment = s.environment := open_environment s _ _
  rw [run_settings parsed s, ← environment]
  refine ⟨rfl, fun fine => ?_, fun e fails => ?_⟩
  · obtain ⟨isDone, silent⟩ := runSettings_of_not_failsWith fine
    exact ⟨isDone, silent.after opening⟩
  · have told := runSettings_of_failsWith fails
    have one : Reports 1 t (runSettings t action) := ⟨_, told, rfl⟩
    exact ⟨told, one.after opening⟩

/-- Arguments by which a setting gets a value. -/
def assignArguments (key v : String) : List String := ["--no-log-file", "config", "set", key, v]

theorem Session.bare_legible (e : SettingsFault) :
    ¬ Settings.Unloadable Session.bare.files Session.bare.environment.settingsFile e := by
  intro illegible
  have loaded : Settings.load Session.bare.files Session.bare.environment.settingsFile = .ok {} := by
    decide +kernel
  cases loaded.symm.trans (Settings.load_eq_error.2 illegible)

/-- There is no file of settings yet, and it can be made. -/
theorem run_settings_outcome_first :
    let action := SettingsAction.assign "tool-id" "x"
    parse (assignArguments "tool-id" "x") = some (.run { noLogFile := true } (.settings action)) ∧
      (∀ e, ¬ action.FailsWith Session.bare.files Session.bare.environment.settingsFile e) ∧
      (run .bare (assignArguments "tool-id" "x")).2 = 0 ∧
      action.IsDone .bare (run .bare (assignArguments "tool-id" "x")).1 := by
  intro action
  have parsed : parse (assignArguments "tool-id" "x") =
      some (.run { noLogFile := true } (.settings action)) := by decide +kernel
  have fine : ∀ e, ¬ (assign "tool-id" "x").FailsWith Session.bare.files
      Session.bare.environment.settingsFile e := by
    intro e fails
    cases fails with
    | unloaded illegible => exact Session.bare_legible e illegible
    | unknown _ unknown => exact unknown (by decide)
    | unwritten _ _ blocked => exact blocked (by decide +kernel)
  obtain ⟨exit, done, -⟩ := run_settings_outcome parsed .bare
  exact ⟨parsed, fine, exit, (done fine).1⟩

/-- The run exits with 0 after it has told the user that nothing was set. -/
theorem run_settings_exits_well :
    (run .bare (assignArguments "nope" "x")).2 = 0 ∧
      (run .bare (assignArguments "nope" "x")).1.notices =
        [⟨.error, "Failed to set nope: Unknown config key: nope. Supported keys: " ++ Setting.names⟩] := by
  have parsed : parse (assignArguments "nope" "x") =
      some (.run { noLogFile := true } (.settings (.assign "nope" "x"))) := by decide +kernel
  have fails : (assign "nope" "x").FailsWith Session.bare.files
      Session.bare.environment.settingsFile (.unknownKey "nope") :=
    .unknown Session.bare_legible (by decide)
  have told := runSettings_of_failsWith (s := .bare) fails
  rw [run_settings parsed]
  exact ⟨rfl, told⟩

end CommandLine
end PluginDescriptor
