import PluginDescriptor.Proofs.Messages

namespace PluginDescriptor.CommandLine

namespace Session

/-- From one state of a run to a later one the user is shown further notices, so many of them
errors. -/
def Reports (count : Nat) (s t : Session) : Prop :=
  ∃ added, t.notices = s.notices ++ added ∧ added.countP (·.grade == .error) = count

variable {s t u : Session}

theorem reports_of_same (same : t.notices = s.notices) : Reports 0 s t := by
  refine ⟨[], ?_, rfl⟩
  rw [same, List.append_nil]

theorem Reports.trans {m n : Nat} (first : Reports m s t) (second : Reports n t u) :
    Reports (m + n) s u := by
  obtain ⟨before, fromS, errors⟩ := first
  obtain ⟨after, fromT, more⟩ := second
  refine ⟨before ++ after, ?_, ?_⟩
  · rw [fromT, fromS, List.append_assoc]
  · rw [List.countP_append, errors, more]

theorem Reports.after {n : Nat} (second : Reports n t u) (first : Reports 0 s t) :
    Reports n s u := by
  have both := first.trans second
  rwa [Nat.zero_add] at both

theorem Reports.before {n : Nat} (first : Reports n s t) (second : Reports 0 t u) : Reports n s u :=
  first.trans second

theorem reports_log (s : Session) (line : String) : Reports 0 s (s.log line) := by
  refine reports_of_same ?_
  unfold log
  split
  · rfl
  · dsimp only
    split <;> rfl

theorem reports_notify (s : Session) (grade : Grade) (other : grade ≠ .error) (text : String) :
    Reports 0 s (s.notify grade text) := by
  refine ⟨[⟨grade, text⟩], rfl, ?_⟩
  rw [List.countP_singleton, if_neg]
  simpa using other

theorem lasting_reports : Lasting (Reports 0) where
  refl _ := reports_of_same rfl
  trans first second := first.before second
  log := reports_log
  notify := reports_notify
  drained _ := reports_of_same rfl

theorem reports_error (s : Session) (message : String) : Reports 1 s (s.error message) := by
  have shown : Reports 1 (s.log ("ERROR " ++ message)) (s.error message) :=
    ⟨[⟨.error, message⟩], rfl, rfl⟩
  exact shown.after (reports_log s _)

theorem reports_showDiagnostics (s : Session) (l : List Diagnostic) :
    Reports l.length s (s.showDiagnostics l) := by
  induction l generalizing s with
  | nil => exact reports_of_same rfl
  | cons d rest ih =>
    have first := reports_error s (diagnosticText d)
    have both := first.trans (ih (s.error (diagnosticText d)))
    rw [List.length_cons, Nat.add_comm]
    exact both

/-- A log file that cannot be made is mentioned, but not as an error. -/
theorem reports_open (s : Session) (verbosity : Nat) (logToFile : Bool) :
    Reports 0 s (s.open_ verbosity logToFile) := by
  unfold open_
  dsimp only
  split
  · split
    · exact (reports_of_same rfl).before (reports_notify _ .plain nofun _)
    · exact reports_of_same rfl
  · exact reports_of_same rfl

end Session

open Session

/-- A generation from `s` ended well and without errors, or it failed after one error was shown. -/
def Settled (s : Session) (r : Session × Except GenerateFault Unit) : Prop :=
  r.2 = .ok () ∧ Reports 0 s r.1 ∨ ∃ e, r.2 = .error (.build e) ∧ Reports 1 s r.1

theorem Settled.after {s t : Session} {r : Session × Except GenerateFault Unit}
    (settled : Settled t r) (first : Reports 0 s t) : Settled s r := by
  rcases settled with ⟨done, silent⟩ | ⟨e, failed, told⟩
  · exact Or.inl ⟨done, silent.after first⟩
  · exact Or.inr ⟨e, failed, told.after first⟩

theorem printDescriptor_settled (s : Session) (o : Options) (scanner : Scanner) :
    Settled s (printDescriptor s o scanner) := by
  unfold printDescriptor assembleReporting
  cases assemble scanner o.defaultVersion with
  | error e => exact Or.inr ⟨e, rfl, reports_showDiagnostics s [e.diagnostic]⟩
  | ok d =>
    have silent := reports_showDiagnostics s []
    cases d with
    | none => exact Or.inl ⟨rfl, silent.before (lasting_reports.info _ _)⟩
    | some d => exact Or.inl ⟨rfl, silent.before (reports_of_same rfl)⟩

theorem writeDescriptor_settled (s : Session) (o : Options) (scanner : Scanner) :
    Settled s (writeDescriptor s o scanner) := by
  have built := buildWith_reported o (o.stamp s.time) scanner s.files []
  unfold writeDescriptor build
  generalize buildWith o (o.stamp s.time) scanner s.files [] = r at built ⊢
  have shown : Reports r.reported.length s
      (Session.showDiagnostics { s with files := r.files } r.reported) :=
    (reports_showDiagnostics _ r.reported).after (reports_of_same rfl)
  dsimp only
  rw [built] at shown ⊢
  cases outcome : r.outcome with
  | error e =>
    rw [outcome] at shown
    exact Or.inr ⟨e, rfl, shown⟩
  | ok done =>
    rw [outcome] at shown
    cases done with
    | skipped => exact Or.inl ⟨rfl, shown.before (lasting_reports.info _ _)⟩
    | written p => exact Or.inl ⟨rfl, shown.before (lasting_reports.success _ _)⟩

/-- A generation stops silently at an input that cannot be read, or it is settled. -/
theorem generate_cases (s : Session) (a : GenerateArguments) :
    (∃ e, (loadSnapshots (loadSettings s).1 a.declarations).2 = .error e ∧
        (generate s a).2 = .error (.input e) ∧ Reports 0 s (generate s a).1) ∨
      (∃ snapshot, (loadSnapshots (loadSettings s).1 a.declarations).2 = .ok snapshot) ∧
        Settled s (generate s a) := by
  have settings := lasting_reports.loadSettings s
  have reading := lasting_reports.loadSnapshots (loadSettings s).1 a.declarations
  unfold generate
  dsimp only
  generalize loadSnapshots (loadSettings s).1 a.declarations = run at reading ⊢
  obtain ⟨t, result⟩ := run
  have loaded := settings.before reading
  cases result with
  | error e => exact Or.inl ⟨e, rfl, rfl, loaded⟩
  | ok snapshot =>
    refine Or.inr ⟨⟨snapshot, rfl⟩, ?_⟩
    dsimp only
    split
    · exact (printDescriptor_settled t _ _).after loaded
    · exact (writeDescriptor_settled t _ _).after loaded

/-- The inputs are read up to a text that is not a snapshot. -/
def StopsAtSnapshot (s : Session) (a : GenerateArguments) : Prop :=
  ∃ origin why,
    (loadSnapshots (loadSettings s).1 a.declarations).2 = .error (.invalid origin why)

/-- A generation that fails exits with 1 after one error, and any other exits with 0 after none. The
exception is a text that is not a snapshot: its fault is left to the diagnostics, which do not know of
it. -/
theorem reports_runGenerate (s : Session) (a : GenerateArguments) :
    (¬ StopsAtSnapshot s a → (runGenerate s a).2 ≤ 1 ∧
        Reports (runGenerate s a).2 s (runGenerate s a).1) ∧
      (StopsAtSnapshot s a → (runGenerate s a).2 = 1 ∧ Reports 0 s (runGenerate s a).1) := by
  have endings := generate_cases s a
  unfold runGenerate StopsAtSnapshot
  generalize generate s a = run at endings ⊢
  generalize (loadSnapshots (loadSettings s).1 a.declarations).2 = loaded at endings ⊢
  obtain ⟨t, result⟩ := run
  rcases endings with ⟨e, rfl, rfl, silent⟩ | ⟨⟨snapshot, rfl⟩, ⟨rfl, silent⟩ | ⟨e, rfl, told⟩⟩
  · cases e with
    | invalid origin why =>
      refine ⟨fun other => (other ⟨origin, why, rfl⟩).elim, fun _ => ⟨rfl, ?_⟩⟩
      exact silent.before (lasting_reports.nameLogFile t)
    | missing | notText =>
      refine ⟨fun _ => ⟨Nat.le_refl 1, ?_⟩, nofun⟩
      exact ((reports_error t _).after silent).before (lasting_reports.nameLogFile _)
  · exact ⟨fun _ => ⟨Nat.zero_le 1, silent⟩, nofun⟩
  · exact ⟨fun _ => ⟨Nat.le_refl 1, told.before (lasting_reports.nameLogFile t)⟩, nofun⟩

/-- The exit status of a generation is 1 exactly if the user was shown an error, except that a text
that is not a snapshot ends it with 1 and without an error. -/
theorem run_generate_reports {args : List String} {chatter : Chatter} {a : GenerateArguments}
    (parsed : parse args = some (.run chatter (.generate a))) (s : Session) :
    ∃ added, (run s args).1.notices = s.notices ++ added ∧
      ((run s args).2 = 0 ∨ (run s args).2 = 1) ∧
      (¬ StopsAtSnapshot (s.open_ chatter.level (!chatter.noLogFile)) a →
        ((run s args).2 = 1 ↔ ∃ n ∈ added, n.grade = .error)) ∧
      (StopsAtSnapshot (s.open_ chatter.level (!chatter.noLogFile)) a →
        (run s args).2 = 1 ∧ ∀ n ∈ added, n.grade ≠ .error) := by
  have opening := reports_open s chatter.level (!chatter.noLogFile)
  have running : run s args = runGenerate (s.open_ chatter.level (!chatter.noLogFile)) a := by
    unfold run
    rw [parsed]
  rw [running]
  generalize s.open_ chatter.level (!chatter.noLogFile) = t at opening ⊢
  obtain ⟨told, silent⟩ := reports_runGenerate t a
  by_cases stops : StopsAtSnapshot t a
  · obtain ⟨exit, reports⟩ := silent stops
    obtain ⟨added, shown, count⟩ := reports.after opening
    have none : ∀ n ∈ added, n.grade ≠ .error := by
      simpa [List.countP_eq_zero] using count
    exact ⟨added, shown, Or.inr exit, fun other => (other stops).elim, fun _ => ⟨exit, none⟩⟩
  · obtain ⟨exit, reports⟩ := told stops
    obtain ⟨added, shown, count⟩ := reports.after opening
    have some_ : (runGenerate t a).2 = 1 ↔ ∃ n ∈ added, n.grade = .error := by
      have positive : 0 < added.countP (·.grade == .error) ↔ ∃ n ∈ added, n.grade = .error := by
        simp [List.countP_pos_iff]
      rw [← positive]
      omega
    exact ⟨added, shown, by omega, fun _ => some_, fun other => (stops other).elim⟩

/-- A run in which there are no files. -/
def Session.bare : Session where
  files := {}
  environment := { home := ⟨"/home"⟩ }
  time := ⟨2024, 1, 2, 3, 4, 5⟩

/-- A run with a file that should be a snapshot and is not. -/
def Session.broken : Session :=
  { Session.bare with files := ({} : FileTree).put ["demo.json"] (.file "no snapshot".toUTF8) }

/-- Arguments by which this file is to be read. -/
def demoArguments : List String := ["--no-log-file", "generate", "-d", "demo.json"]

def demoGenerate : GenerateArguments := { declarations := ["demo.json"] }

theorem run_generate_reports_missing :
    parse demoArguments = some (.run { noLogFile := true } (.generate demoGenerate)) ∧
      (run .bare demoArguments).1.notices =
        [⟨.error, "Generate failed: Declaration snapshot not found: demo.json"⟩] ∧
      ∃ added, (run .bare demoArguments).1.notices = Session.bare.notices ++ added ∧
        ((run .bare demoArguments).2 = 0 ∨ (run .bare demoArguments).2 = 1) ∧
        (¬ StopsAtSnapshot (Session.bare.open_ 0 false) demoGenerate →
          ((run .bare demoArguments).2 = 1 ↔ ∃ n ∈ added, n.grade = .error)) ∧
        (StopsAtSnapshot (Session.bare.open_ 0 false) demoGenerate →
          (run .bare demoArguments).2 = 1 ∧ ∀ n ∈ added, n.grade ≠ .error) := by
  have parsed : parse demoArguments =
      some (.run { noLogFile := true } (.generate demoGenerate)) := by decide +kernel
  refine ⟨parsed, by decide +kernel, ?_⟩
  exact run_generate_reports parsed .bare

/-- The run fails at a text that is not a snapshot, and the user is not told why. -/
theorem run_generate_silent :
    (run .broken demoArguments).2 = 1 ∧ (run .broken demoArguments).1.notices = [] := by
  refine ⟨?_, ?_⟩ <;> decide +kernel

end PluginDescriptor.CommandLine
