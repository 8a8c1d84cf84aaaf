import PluginDescriptor.Proofs.LogFile

namespace PluginDescriptor.CommandLine

open Session (Keeps keeps_of_same lasting_keeps keeps_error keeps_showDiagnostics)

/-- Finds what a descriptor is to be made of, and with which options. -/
def findSources (s : Session) (a : GenerateArguments) :
    Session × Except InputFault (Options × Scanner) :=
  match loadSnapshots (loadSettings s).1 a.declarations with
  | (t, .error e) => (t, .error e)
  | (t, .ok snapshot) =>
    (t, .ok ((loadSettings s).2.options a.output a.defaultVersion, snapshot.scanner))

theorem generate_of_error {s t : Session} {a : GenerateArguments} {e : InputFault}
    (failed : findSources s a = (t, .error e)) : generate s a = (t, .error (.input e)) := by
  unfold findSources at failed
  unfold generate
  cases reading : loadSnapshots (loadSettings s).1 a.declarations with
  | mk u result =>
    rw [reading] at failed
    cases result with
    | error e' =>
      cases failed
      simp only [reading]
    | ok snapshot => cases failed

theorem generate_of_ok {s t : Session} {a : GenerateArguments} {o : Options} {scanner : Scanner}
    (found : findSources s a = (t, .ok (o, scanner))) :
    generate s a =
      if a.dryRun then printDescriptor t o scanner else writeDescriptor t o scanner := by
  unfold findSources at found
  unfold generate
  cases reading : loadSnapshots (loadSettings s).1 a.declarations with
  | mk u result =>
    rw [reading] at found
    cases result with
    | error e => cases found
    | ok snapshot =>
      cases found
      simp only [reading]

theorem keeps_findSources (s : Session) (a : GenerateArguments) :
    s.Keeps (findSources s a).1 := by
  have reading := (lasting_keeps.loadSettings s).trans
    (lasting_keeps.loadSnapshots (loadSettings s).1 a.declarations)
  unfold findSources
  split
  · next shape =>
    rw [shape] at reading
    exact reading
  · next shape =>
    rw [shape] at reading
    exact reading

theorem lasting_print : Lasting fun s t => t.output = s.output ∧ t.time = s.time where
  refl _ := ⟨rfl, rfl⟩
  trans first second := ⟨second.1.trans first.1, second.2.trans first.2⟩
  log s line := by
    unfold Session.log
    split
    · exact ⟨rfl, rfl⟩
    · dsimp only
      split <;> exact ⟨rfl, rfl⟩
  notify _ _ _ _ := ⟨rfl, rfl⟩
  drained _ := ⟨rfl, rfl⟩

theorem findSources_output (s : Session) (a : GenerateArguments) :
    (findSources s a).1.output = s.output ∧ (findSources s a).1.time = s.time := by
  have reading := lasting_print.trans (lasting_print.loadSettings s)
    (lasting_print.loadSnapshots (loadSettings s).1 a.declarations)
  unfold findSources
  split
  · next shape =>
    rw [shape] at reading
    exact reading
  · next shape =>
    rw [shape] at reading
    exact reading

/-- How a run that shows its descriptor and one that writes it end. Both start in the same state and
then open their log files. -/
inductive Agree (s opened : Session) (a : GenerateArguments) (dry real : Session × Nat) : Prop
  /-- There is no entry point, and both say so. -/
  | skipped {t : Session} {o : Options} {scanner : Scanner}
      (found : findSources opened a = (t, .ok (o, scanner)))
      (none : assemble scanner o.defaultVersion = .ok none)
      (dry_eq : dry = (t.info "No plugin main class found; nothing to render", 0))
      (real_eq : real = (t.info "No plugin main class found; nothing generated", 0))
  /-- Both fail alike, and nothing is written. -/
  | failed (same : dry = real) (exit : dry.2 = 1) (unwritten : opened.Keeps dry.1)
  /-- The one shows what the other writes, if it can write. -/
  | shown {t : Session} {o : Options} {scanner : Scanner} {d : Document}
      (found : findSources opened a = (t, .ok (o, scanner)))
      (some : assemble scanner o.defaultVersion = .ok (some d))
      (exit : dry.2 = 0)
      (output : dry.1.output = s.output ++ (o.stamp s.time).render d)
      (unwritten : opened.Keeps dry.1)
      (writes : ∀ files,
        t.files.replace o.artifactPath ((o.stamp s.time).render d).toUTF8 = (files, true) →
          files.read? o.artifactPath = .some ((o.stamp s.time).render d).toUTF8 ∧
            real = (Session.success { t with files } ("Generated " ++ o.artifactPath.text), 0))
      (fails : ∀ files,
        t.files.replace o.artifactPath ((o.stamp s.time).render d).toUTF8 = (files, false) →
          real.2 = 1)

section

variable {s t : Session} {a : GenerateArguments}

theorem runGenerate_of_error {e : GenerateFault} (failed : generate s a = (t, .error e)) :
    runGenerate s a = (nameLogFile (tellFault t e), 1) := by
  rw [runGenerate, failed]

theorem runGenerate_of_ok (done : generate s a = (t, .ok ())) : runGenerate s a = (t, 0) := by
  rw [runGenerate, done]

theorem keeps_tellFault (s : Session) (e : GenerateFault) : s.Keeps (tellFault s e) := by
  unfold tellFault
  split
  · split
    · exact Keeps.refl s
    · exact keeps_error s _
  · exact Keeps.refl s

theorem runGenerate_agree {s opened : Session}
    (unprinted : opened.output = s.output ∧ opened.time = s.time) (a : GenerateArguments) :
    Agree s opened a (runGenerate opened { a with dryRun := true })
      (runGenerate opened { a with dryRun := false }) := by
  have keeps := keeps_findSources opened a
  cases sources : findSources opened a with
  | mk t result =>
    rw [sources] at keeps
    cases result with
    | error e =>
      have dry := runGenerate_of_error (generate_of_error (a := { a with dryRun := true }) sources)
      have real := runGenerate_of_error (generate_of_error (a := { a with dryRun := false }) sources)
      refine .failed (dry.trans real.symm) (by rw [dry]) ?_
      rw [dry]
      exact (keeps.trans (keeps_tellFault t _)).trans (lasting_keeps.nameLogFile _)
    | ok found =>
      obtain ⟨o, scanner⟩ := found
      have dry : generate opened { a with dryRun := true } = printDescriptor t o scanner :=
        generate_of_ok (a := { a with dryRun := true }) sources
      have real : generate opened { a with dryRun := false } = writeDescriptor t o scanner :=
        generate_of_ok (a := { a with dryRun := false }) sources
      unfold printDescriptor assembleReporting at dry
      unfold writeDescriptor build buildWith assembleReporting at real
      cases assembled : assemble scanner o.defaultVersion with
      | error e =>
        rw [assembled] at dry real
        have dry' := runGenerate_of_error dry
        have real' := runGenerate_of_error real
        refine .failed (dry'.trans real'.symm) (by rw [dry']) ?_
        rw [dry']
        exact ((keeps.trans (keeps_showDiagnostics t _)).trans (keeps_tellFault _ _)).trans
          (lasting_keeps.nameLogFile _)
      | ok result =>
        rw [assembled] at dry real
        cases result with
        | none => exact .skipped sources assembled (runGenerate_of_ok dry) (runGenerate_of_ok real)
        | some d =>
          obtain ⟨output, time⟩ := findSources_output opened a
          rw [sources, unprinted.1] at output
          rw [sources, unprinted.2] at time
          have dry' := runGenerate_of_ok dry
          refine .shown sources assembled (by rw [dry']) ?_ ?_ (fun files written => ?_)
            (fun files unwritten => ?_)
          · rw [dry', ← output, ← time]
            rfl
          · rw [dry']
            exact keeps.trans (keeps_of_same rfl rfl rfl)
          · rw [← time] at written
            simp only [Stamp.write, written] at real
            exact ⟨FileTree.read?_of_replace (time ▸ written), runGenerate_of_ok real⟩
          · rw [← time] at unwritten
            simp only [Stamp.write, unwritten] at real
            rw [runGenerate_of_error real]

theorem Agree.keeps {opened : Session} {dry real : Session × Nat}
    (agree : Agree s opened a dry real) : opened.Keeps dry.1 := by
  cases agree with
  | skipped found _ dry_eq =>
    have keeps := keeps_findSources opened a
    rw [found] at keeps
    rw [dry_eq]
    exact keeps.trans (lasting_keeps.info _ _)
  | failed _ _ unwritten => exact unwritten
  | shown _ _ _ _ unwritten => exact unwritten

end

namespace Session

/-- The place that the path of the log file names. -/
def IsLogPlace (s : Session) (x : Place) : Prop :=
  x = (s.files.start s.environment.logFile).walk s.environment.logFile.segments

/-- A place that the path of the directory of the log file comes by. -/
def IsOnWayToLog (s : Session) (x : Place) : Prop :=
  ∃ m, m <+: s.environment.directory.segments ∧
    x = (s.files.start s.environment.directory).walk m

/-- What a run may do to a place for the sake of its log file. -/
def Touches (s : Session) (x : Place) (after : Option FileNode) : Prop :=
  s.IsLogPlace x ∨ s.files.node? x = none ∧ after = some .directory ∧ s.IsOnWayToLog x

theorem open_print (s : Session) (verbosity : Nat) (logToFile : Bool) :
    (s.open_ verbosity logToFile).output = s.output ∧
      (s.open_ verbosity logToFile).time = s.time := by
  unfold open_
  dsimp only
  split
  · split <;> exact ⟨rfl, rfl⟩
  · exact ⟨rfl, rfl⟩

theorem open_working (s : Session) (verbosity : Nat) (logToFile : Bool) :
    (s.open_ verbosity logToFile).files.workingDirectory = s.files.workingDirectory := by
  have working := (FileTree.extends_makeDirectories s.files s.environment.directory).working
  unfold open_
  dsimp only
  split
  · split
    · next made =>
      rw [made] at working
      exact working
    · next files made =>
      rw [made] at working
      unfold FileTree.remove?
      split
      · exact working
      · split
        · exact working
        · exact working
  · rfl

/-- Opening the log file touches nothing else. -/
theorem open_touches (s : Session) (verbosity : Nat) (logToFile : Bool) (x : Place) :
    (s.open_ verbosity logToFile).files.node? x = s.files.node? x ∨
      logToFile = true ∧ s.Touches x ((s.open_ verbosity logToFile).files.node? x) := by
  have more := FileTree.extends_makeDirectories s.files s.environment.directory
  have made := (more.node x).imp_right fun ⟨nothing, new⟩ =>
    (show _ ∧ _ ∧ s.IsOnWayToLog x from ⟨nothing, new, FileTree.makeDirectories_new nothing new⟩)
  unfold open_
  dsimp only
  split
  · next logs =>
    split
    · next shape =>
      rw [shape] at made
      exact made.imp_right fun new => ⟨logs, Or.inr new⟩
    · next files shape =>
      rw [shape] at made more
      by_cases here : s.IsLogPlace x
      · exact Or.inr ⟨logs, Or.inl here⟩
      · have same : ((files.remove? s.environment.logFile).getD files).node? x = files.node? x := by
          unfold FileTree.remove?
          split
          · rfl
          · next a located =>
            split
            · next content file =>
              have place : s.IsLogPlace a := by
                have way := FileTree.eq_walk_of_locate? located
                rwa [FileTree.start_eq more.working] at way
              have below : a ≠ [] := by
                rintro rfl
                cases file
              have other : x ≠ a := by
                rintro rfl
                exact here place
              exact (FileTree.node?_drop below x).trans (if_neg other)
            · rfl
        dsimp only
        rw [same]
        exact made.imp_right fun new => ⟨logs, Or.inr new⟩
  · exact Or.inl rfl

/-- Opening the log file takes no directory away. -/
theorem open_directory (s : Session) (verbosity : Nat) (logToFile : Bool) (x : Place)
    (there : s.files.isDirectoryAt x) : (s.open_ verbosity logToFile).files.isDirectoryAt x := by
  have made := (FileTree.extends_makeDirectories s.files s.environment.directory).directory there
  unfold open_
  dsimp only
  split
  · split
    · next shape =>
      rw [shape] at made
      exact made
    · next files shape =>
      rw [shape] at made
      unfold FileTree.remove?
      split
      · exact made
      · next a located =>
        split
        · next content file =>
          have other : ¬ files.isDirectoryAt a := by
            rw [FileTree.isDirectoryAt_iff, file]
            nofun
          exact ((FileTree.sameDirectories_drop other).directory x).trans made
        · exact made
  · exact there

theorem open_logFile {s : Session} (fresh : s.logFile = none) {verbosity : Nat} {logToFile : Bool}
    {p : Path} (logFile : (s.open_ verbosity logToFile).logFile = some p) :
    logToFile = true ∧ p = s.environment.logFile := by
  unfold open_ at logFile
  dsimp only at logFile
  split at logFile
  · next logging =>
    split at logFile
    · rw [notify, fresh] at logFile
      cases logFile
    · cases logFile
      exact ⟨logging, rfl⟩
  · rw [fresh] at logFile
    cases logFile

theorem open_logsAt {s : Session} (fresh : s.logFile = none) (verbosity : Nat) (logToFile : Bool)
    {x : Place} (logs : (s.open_ verbosity logToFile).LogsAt x) :
    logToFile = true ∧ s.IsLogPlace x := by
  obtain ⟨l, logFile, located, -⟩ := logs
  have way := FileTree.eq_walk_of_locate? located
  rw [FileTree.start_eq (s.open_working verbosity logToFile)] at way
  obtain ⟨logging, rfl⟩ := open_logFile fresh logFile
  exact ⟨logging, way⟩

end Session

/-- A run that only shows its descriptor agrees with one that writes it, and touches nothing but the
log file and, where nothing was, directories on the way to it; without a log file it touches
nothing. -/
theorem run_dryRun {args args' : List String} {chatter : Chatter} {a : GenerateArguments}
    (dry : parse args = some (.run chatter (.generate { a with dryRun := true })))
    (real : parse args' = some (.run chatter (.generate { a with dryRun := false })))
    {s : Session} (fresh : s.logFile = none) :
    Agree s (s.open_ chatter.level (!chatter.noLogFile)) a (run s args) (run s args') ∧
      ∀ x, (run s args).1.files.node? x = s.files.node? x ∨
        chatter.noLogFile = false ∧ s.Touches x ((run s args).1.files.node? x) := by
  have agree := runGenerate_agree (s.open_print chatter.level (!chatter.noLogFile)) a
  have dry' : run s args = runGenerate (s.open_ chatter.level (!chatter.noLogFile))
      { a with dryRun := true } := by rw [run, dry]
  have real' : run s args' = runGenerate (s.open_ chatter.level (!chatter.noLogFile))
      { a with dryRun := false } := by rw [run, real]
  rw [← dry', ← real'] at agree
  refine ⟨agree, fun x => ?_⟩
  have keeps := agree.keeps
  by_cases logs : (s.open_ chatter.level (!chatter.noLogFile)).LogsAt x
  · obtain ⟨logging, place⟩ := Session.open_logsAt fresh _ _ logs
    exact Or.inr ⟨by simpa using logging, Or.inl place⟩
  · rw [keeps.node x logs]
    have touches := s.open_touches chatter.level (!chatter.noLogFile) x
    simpa using touches

/-- A run whose user has no log file yet, with a snapshot of a plugin and a file that should be one
and is not. -/
def Session.firstRun : Session where
  files.nodes := .ofList
    [(["home"], .directory),
      (["m.json"],
        .file "[[[\"M\",\"class\",\x7b\"package\":\"\"\x7d,[],[\x7b\"marker\":\"Plugin\"\x7d]]]]".toUTF8),
      (["x.json"], .file "x".toUTF8)]
  environment.home := ⟨"/home"⟩
  time := ⟨2024, 1, 2, 3, 4, 5⟩

theorem run_dryRun_firstRun :
    let a : GenerateArguments := { declarations := ["m.json"] }
    let dry := ["generate", "-d", "m.json", "--dry-run"]
    let real := ["generate", "-d", "m.json"]
    parse dry = some (.run {} (.generate { a with dryRun := true })) ∧
      parse real = some (.run {} (.generate { a with dryRun := false })) ∧
      Session.firstRun.logFile = none ∧
      (run .firstRun dry).2 = 0 ∧
      (run .firstRun dry).1.files.node? ["plugin.yml"] = none ∧
      (run .firstRun real).1.notices.map Notice.line = ["✔ Generated ./plugin.yml\n"] ∧
      Agree .firstRun (Session.firstRun.open_ 0 true) a (run .firstRun dry) (run .firstRun real) ∧
      ∀ x, (run .firstRun dry).1.files.node? x = Session.firstRun.files.node? x ∨
        Session.firstRun.Touches x ((run .firstRun dry).1.files.node? x) := by
  intro a dry real
  have parsed : parse dry = some (.run {} (.generate { a with dryRun := true })) := by
    decide +kernel
  have parsed' : parse real = some (.run {} (.generate { a with dryRun := false })) := by
    decide +kernel
  obtain ⟨agree, touches⟩ := run_dryRun parsed parsed' (rfl : Session.firstRun.logFile = none)
  refine ⟨parsed, parsed', rfl, by decide +kernel, by decide +kernel, by decide +kernel, agree, ?_⟩
  exact fun x => (touches x).imp_right And.right

/-- A run that shows nothing and logs nothing makes the directory of the log file. -/
theorem run_dryRun_makes_directory :
    let args := ["generate", "-d", "x.json", "--dry-run"]
    parse args = some (.run {} (.generate { declarations := ["x.json"], dryRun := true })) ∧
      Session.firstRun.files.node? ["home", ".config"] = none ∧
      (run .firstRun args).1.files.node? ["home", ".config"] = some .directory ∧
      ¬ Session.firstRun.IsLogPlace ["home", ".config"] ∧
      (run .firstRun args).1.files.lookup? Session.firstRun.environment.logFile = none := by
  unfold Session.IsLogPlace
  refine ⟨?_, ?_, ?_, ?_, ?_⟩ <;> decide +kernel

end PluginDescriptor.CommandLine
