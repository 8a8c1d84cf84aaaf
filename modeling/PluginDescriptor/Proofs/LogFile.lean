import PluginDescriptor.Proofs.Below
import PluginDescriptor.Proofs.Messages
import PluginDescriptor.Proofs.Writable

namespace PluginDescriptor

theorem Environment.directory_filled (e : Environment) : e.directory.text ≠ "" :=
  Path.join_filled (by decide)

namespace CommandLine.Session

open FileTree (SameDirectories isDirectoryAt_iff node?_put ne_root_of_not_directory)

/-- The place of the log file, if something can be written there. -/
def LogsAt (s : Session) (x : Place) : Prop :=
  ∃ l, s.logFile = some l ∧ s.files.locate? l = some x ∧ ¬ s.files.isDirectoryAt x

/-- A later state of a run in which at most the log file is another one. -/
structure Keeps (s t : Session) : Prop where
  logFile : t.logFile = s.logFile
  environment : t.environment = s.environment
  same : SameDirectories s.files t.files
  node : ∀ x, ¬ s.LogsAt x → t.files.node? x = s.files.node? x

variable {s t u : Session}

theorem keeps_of_same (logFile : t.logFile = s.logFile) (environment : t.environment = s.environment)
    (files : t.files = s.files) : s.Keeps t :=
  ⟨logFile, environment, by rw [files]; exact ⟨rfl, fun _ => rfl⟩, fun _ _ => by rw [files]⟩

theorem Keeps.refl (s : Session) : s.Keeps s := keeps_of_same rfl rfl rfl

theorem Keeps.logsAt (keeps : s.Keeps t) {x : Place} : t.LogsAt x ↔ s.LogsAt x := by
  unfold LogsAt
  rw [keeps.logFile]
  simp only [keeps.same.locate?, keeps.same.directory]

theorem Keeps.trans (first : s.Keeps t) (second : t.Keeps u) : s.Keeps u := by
  refine ⟨second.logFile.trans first.logFile, second.environment.trans first.environment,
    first.same.trans second.same, fun x aside => ?_⟩
  rw [second.node x (first.logsAt.not.2 aside), first.node x aside]

/-- What a path leads to stays the same, unless it is the log file. -/
theorem Keeps.lookup? (keeps : s.Keeps t) {p : Path}
    (aside : ∀ x, s.files.locate? p = some x → ¬ s.LogsAt x) :
    t.files.lookup? p = s.files.lookup? p := by
  unfold FileTree.lookup?
  rw [keeps.same.locate?]
  cases located : s.files.locate? p with
  | none => rfl
  | some x => exact keeps.node x (aside x located)

theorem keeps_log (s : Session) (line : String) : s.Keeps (s.log line) := by
  unfold log
  split
  · exact Keeps.refl s
  · next l logFile =>
    dsimp only
    split
    · exact Keeps.refl s
    · next files written =>
      obtain ⟨x, located, other, rfl⟩ := FileTree.write?_eq_some_iff.1 written
      refine ⟨rfl, rfl, FileTree.sameDirectories_put other _, fun y aside => ?_⟩
      have differs : y ≠ x := by
        rintro rfl
        exact aside ⟨l, logFile, located, other⟩
      rw [node?_put (ne_root_of_not_directory other), if_neg differs]

theorem keeps_notify (s : Session) (grade : Grade) (text : String) : s.Keeps (s.notify grade text) :=
  keeps_of_same rfl rfl rfl

theorem lasting_keeps : Lasting Keeps where
  refl := Keeps.refl
  trans first second := first.trans second
  log := keeps_log
  notify s grade _ text := keeps_notify s grade text
  drained _ := keeps_of_same rfl rfl rfl

theorem keeps_error (s : Session) (message : String) : s.Keeps (s.error message) :=
  (keeps_log s _).trans (keeps_notify ..)

theorem keeps_showDiagnostics (s : Session) (l : List Diagnostic) :
    s.Keeps (s.showDiagnostics l) := by
  induction l generalizing s with
  | nil => exact Keeps.refl s
  | cons d l ih => exact (keeps_error s _).trans (ih _)

end CommandLine.Session
end PluginDescriptor
