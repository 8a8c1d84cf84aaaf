import PluginDescriptor.CommandLine.Program

namespace PluginDescriptor.CommandLine

/-- Reads one thing and, unless that fails, another one, and joins the two. -/
def andThen (first : Session × Except InputFault Snapshot)
    (second : Session → Session × Except InputFault Snapshot) :
    Session × Except InputFault Snapshot :=
  match first with
  | (s, .error e) => (s, .error e)
  | (s, .ok a) =>
    match second s with
    | (s, .error e) => (s, .error e)
    | (s, .ok b) => (s, .ok (a ++ b))

theorem andThen_ok (s : Session) (a : Snapshot)
    (second : Session → Session × Except InputFault Snapshot) :
    andThen (s, .ok a) second = ((second s).1, (second s).2.map (a ++ ·)) := by
  unfold andThen
  dsimp only
  generalize second s = run
  obtain ⟨t, result⟩ := run
  cases result <;> rfl

theorem readSnapshotFiles_cons (s : Session) (p : Path) (rest : List Path) :
    readSnapshotFiles s (p :: rest) = andThen (readSnapshotFile s p) (readSnapshotFiles · rest) := rfl

theorem readInputs_cons (s : Session) (input : String) (rest : List String) :
    readInputs s (input :: rest) = andThen (readInput s input) (readInputs · rest) := rfl

/-- A relation between a state of a run and a later one that messages other than errors keep up. -/
structure Lasting (R : Session → Session → Prop) : Prop where
  refl : ∀ s, R s s
  trans : ∀ {s t u}, R s t → R t u → R s u
  log : ∀ s line, R s (s.log line)
  notify : ∀ s grade, grade ≠ .error → ∀ text, R s (s.notify grade text)
  drained : ∀ s : Session, R s { s with input := .empty }

namespace Lasting

variable {R : Session → Session → Prop} (lasting : Lasting R)

include lasting

theorem notifyFrom (s : Session) (level : Nat) (grade : Grade) (other : grade ≠ .error)
    (text : String) : R s (s.notifyFrom level grade text) := by
  unfold Session.notifyFrom
  split
  · exact lasting.notify s grade other text
  · exact lasting.refl s

theorem info (s : Session) (message : String) : R s (s.info message) :=
  lasting.trans (lasting.log s _) (lasting.notifyFrom _ 1 .plain nofun message)

theorem debug (s : Session) (message : String) : R s (s.debug message) :=
  lasting.trans (lasting.log s _) (lasting.notifyFrom _ 1 .debug nofun message)

theorem warn (s : Session) (message : String) : R s (s.warn message) :=
  lasting.trans (lasting.log s _) (lasting.notify _ .warning nofun message)

theorem success (s : Session) (message : String) : R s (s.success message) :=
  lasting.trans (lasting.log s _) (lasting.notify _ .success nofun message)

theorem trace (s : Session) (message : String) : R s (s.trace message) :=
  lasting.trans (lasting.notifyFrom s 2 .trace nofun message) (lasting.log _ _)

theorem loadSettings (s : Session) : R s (loadSettings s).1 := by
  unfold CommandLine.loadSettings
  split
  · exact lasting.refl s
  · exact lasting.warn s _

theorem readSnapshot (s : Session) (origin text : String) : R s (readSnapshot s origin text).1 := by
  unfold CommandLine.readSnapshot
  split
  · exact lasting.refl s
  · exact lasting.trace s _

theorem readSnapshotFile (s : Session) (p : Path) : R s (readSnapshotFile s p).1 := by
  unfold CommandLine.readSnapshotFile
  split
  · exact lasting.refl s
  · exact lasting.readSnapshot s p.text _

/-- Of two readings the second starts in the state in which the first ends. -/
theorem andThen {s : Session} {first : Session × Except InputFault Snapshot}
    {second : Session → Session × Except InputFault Snapshot} (reading : R s first.1)
    (next : ∀ t, R t (second t).1) : R s (andThen first second).1 := by
  obtain ⟨t, result⟩ := first
  cases result with
  | error e => exact reading
  | ok a =>
    have others := next t
    rw [andThen_ok]
    cases (second t).2 <;> exact lasting.trans reading others

theorem readSnapshotFiles (s : Session) (paths : List Path) : R s (readSnapshotFiles s paths).1 := by
  induction paths generalizing s with
  | nil => exact lasting.refl s
  | cons p rest ih =>
    rw [readSnapshotFiles_cons]
    exact lasting.andThen (lasting.readSnapshotFile s p) ih

theorem readStandardInput (s : Session) : R s (readStandardInput s).1 := by
  unfold CommandLine.readStandardInput
  dsimp only
  split
  · exact lasting.drained s
  · exact lasting.trans (lasting.drained s) (lasting.readSnapshot _ _ _)

theorem readInput (s : Session) (input : String) : R s (readInput s input).1 := by
  unfold CommandLine.readInput
  dsimp only
  split
  · exact lasting.readStandardInput s
  · split
    · exact lasting.readSnapshotFiles s _
    · split
      · exact lasting.readSnapshotFile s _
      · exact lasting.refl s

theorem readInputs (s : Session) (inputs : List String) : R s (readInputs s inputs).1 := by
  induction inputs generalizing s with
  | nil => exact lasting.refl s
  | cons input rest ih =>
    rw [readInputs_cons]
    exact lasting.andThen (lasting.readInput s input) ih

theorem loadSnapshots (s : Session) (inputs : List String) : R s (loadSnapshots s inputs).1 := by
  have reading := lasting.readInputs s inputs
  unfold CommandLine.loadSnapshots
  generalize CommandLine.readInputs s inputs = run at reading ⊢
  obtain ⟨t, result⟩ := run
  cases result with
  | error e => exact reading
  | ok snapshot => exact lasting.trans reading (lasting.debug t _)

theorem nameLogFile (s : Session) : R s (nameLogFile s) := by
  unfold CommandLine.nameLogFile
  split
  · exact lasting.refl s
  · exact lasting.notify s .plain nofun _

end Lasting
end PluginDescriptor.CommandLine
