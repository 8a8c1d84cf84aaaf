import PluginDescriptor.Proofs.LogFile
import PluginDescriptor.Proofs.Success

namespace PluginDescriptor.CommandLine

open FileTree (sameDirectories_put node?_put ne_root_of_not_directory)
open Session (Keeps lasting_keeps)

/-- A text that should be a snapshot. -/
def readContent (origin : String) (content : ByteArray) : Except InputFault Snapshot :=
  match String.fromUTF8? content with
  | none => .error (.notText origin)
  | some text =>
    match Snapshot.ofText text with
    | .error why => .error (.invalid origin why)
    | .ok snapshot => .ok snapshot

/-- What comes of something that is read, and what it is called. -/
structure Reading where
  origin : String
  result : Except InputFault Snapshot

/-- The reading of a file, or of one that is missing. -/
def Reading.of (origin : String) (content : Option ByteArray) : Reading where
  origin
  result :=
    match content with
    | none => .error (.missing origin)
    | some content => readContent origin content

/-- All snapshots joined, or the first fault. -/
def joined : List (Except InputFault Snapshot) → Except InputFault Snapshot
  | [] => .ok {}
  | .error e :: _ => .error e
  | .ok first :: rest =>
    match joined rest with
    | .error e => .error e
    | .ok others => .ok (first ++ others)

theorem joined_singleton (r : Except InputFault Snapshot) : joined [r] = r := by
  cases r with
  | error e => rfl
  | ok s => exact congrArg (fun l => Except.ok (Snapshot.mk l)) (List.append_nil s.declarations)

theorem joined_append (l m : List (Except InputFault Snapshot)) :
    joined (l ++ m) = match joined l with
      | .error e => .error e
      | .ok first =>
        match joined m with
        | .error e => .error e
        | .ok rest => .ok (first ++ rest) := by
  induction l with
  | nil =>
    cases shape : joined m with
    | error e => exact shape
    | ok rest => exact shape
  | cons r l ih =>
    cases r with
    | error e => rfl
    | ok first =>
      rw [List.cons_append, joined, ih, joined]
      cases joined l with
      | error e => rfl
      | ok second =>
        cases joined m with
        | error e => rfl
        | ok third =>
          exact congrArg (fun l => Except.ok (Snapshot.mk l)) (List.append_assoc ..).symm

theorem joined_map_ok (read : List Snapshot) :
    joined (read.map .ok) = .ok ⟨read.flatMap (·.declarations)⟩ := by
  induction read with
  | nil => rfl
  | cons first read ih =>
    rw [List.map_cons, joined, ih]
    rfl

theorem joined_fault (read : List Snapshot) (e : InputFault)
    (rest : List (Except InputFault Snapshot)) :
    joined (read.map .ok ++ .error e :: rest) = .error e := by
  rw [joined_append, joined_map_ok]
  rfl

/-- Either nothing failed, or something failed first. -/
theorem readings_cases (l : List (Except InputFault Snapshot)) :
    (∃ read : List Snapshot, l = read.map .ok) ∨
      ∃ (read : List Snapshot) (e : InputFault) (rest : List (Except InputFault Snapshot)),
        l = read.map .ok ++ .error e :: rest := by
  induction l with
  | nil => exact Or.inl ⟨[], rfl⟩
  | cons r l ih =>
    cases r with
    | error e => exact Or.inr ⟨[], e, l, rfl⟩
    | ok first =>
      rcases ih with ⟨read, rfl⟩ | ⟨read, e, rest, rfl⟩
      · exact Or.inl ⟨first :: read, rfl⟩
      · exact Or.inr ⟨first :: read, e, rest, rfl⟩

theorem joined_eq_ok_iff {l : List (Except InputFault Snapshot)} {found : Snapshot} :
    joined l = .ok found ↔ ∃ read : List Snapshot,
      l = read.map .ok ∧ found.declarations = read.flatMap (·.declarations) := by
  constructor
  · intro joins
    rcases readings_cases l with ⟨read, rfl⟩ | ⟨read, e, rest, rfl⟩
    · rw [joined_map_ok] at joins
      cases joins
      exact ⟨read, rfl, rfl⟩
    · rw [joined_fault] at joins
      cases joins
  · rintro ⟨read, rfl, same⟩
    rw [joined_map_ok, ← same]

theorem joined_eq_error_iff {l : List (Except InputFault Snapshot)} {e : InputFault} :
    joined l = .error e ↔ ∃ (read : List Snapshot) (rest : List (Except InputFault Snapshot)),
      l = read.map .ok ++ .error e :: rest := by
  constructor
  · intro fails
    rcases readings_cases l with ⟨read, rfl⟩ | ⟨read, e', rest, rfl⟩
    · rw [joined_map_ok] at fails
      cases fails
    · rw [joined_fault] at fails
      cases fails
      exact ⟨read, rest, rfl⟩
  · rintro ⟨read, rest, rfl⟩
    exact joined_fault read e rest

/-- What the log file holds after a reading. A reading that fails is not mentioned there. -/
def noted (time : Timestamp) (held : Option ByteArray) (r : Reading) : Option ByteArray :=
  match r.result with
  | .error _ => held
  | .ok snapshot =>
    let message := r.origin ++ ": " ++ toString snapshot.declarations.length ++ " declarations"
    some (held.getD .empty ++ ("[" ++ time.text "-" ++ "] " ++ ("STEP: " ++ message) ++ "\n").toUTF8)

namespace Session

/-- What a run writes to the log file is the last thing in it. -/
theorem LogsAt.read?_log {s : Session} {p : Path} {x : Place} (at_ : s.LogsAt x)
    (located : s.files.locate? p = some x) (line : String) :
    (s.log line).files.read? p = some ((s.files.read? p).getD .empty ++
      ("[" ++ s.time.text "-" ++ "] " ++ line ++ "\n").toUTF8) := by
  obtain ⟨l, logFile, located', other⟩ := at_
  have same : s.files.read? l = s.files.read? p := by
    rw [FileTree.read?, FileTree.read?, FileTree.lookup?, FileTree.lookup?, located, located']
  unfold log
  rw [logFile]
  dsimp only
  rw [FileTree.write?_eq_some located' other, same]
  refine FileTree.read?_eq_some (((sameDirectories_put other _).locate? p).trans located) ?_
  rw [node?_put (ne_root_of_not_directory other), if_pos rfl]

/-- A later state of a run in which the log file tells of some more readings. -/
structure Notes (s t : Session) (readings : List Reading) : Prop where
  keeps : s.Keeps t
  time : t.time = s.time
  held : ∀ p x, s.files.locate? p = some x → s.LogsAt x →
    t.files.read? p = readings.foldl (noted s.time) (s.files.read? p)

variable {s t u : Session} {before after : List Reading}

theorem Notes.refl (s : Session) : s.Notes s [] := ⟨Keeps.refl s, rfl, fun _ _ _ _ => rfl⟩

theorem Notes.trans (first : s.Notes t before) (second : t.Notes u after) :
    s.Notes u (before ++ after) := by
  refine ⟨first.keeps.trans second.keeps, second.time.trans first.time, fun p x located at_ => ?_⟩
  have located' : t.files.locate? p = some x := (first.keeps.same.locate? p).trans located
  rw [List.foldl_append, second.held p x located' (first.keeps.logsAt.2 at_),
    first.held p x located at_, first.time]

theorem notes_failure (s : Session) (origin : String) (e : InputFault) :
    s.Notes s [⟨origin, .error e⟩] := ⟨Keeps.refl s, rfl, fun _ _ _ _ => rfl⟩

theorem time_log (s : Session) (line : String) : (s.log line).time = s.time := by
  unfold log
  split
  · rfl
  · dsimp only
    split <;> rfl

theorem notes_notifyFrom (s : Session) (level : Nat) (grade : Grade) (text : String) :
    s.Notes (s.notifyFrom level grade text) [] := by
  unfold notifyFrom
  split
  · exact ⟨keeps_notify s grade text, rfl, fun _ _ _ _ => rfl⟩
  · exact Notes.refl s

theorem notes_success (s : Session) (origin : String) (snapshot : Snapshot) :
    s.Notes (s.trace (origin ++ ": " ++ toString snapshot.declarations.length ++ " declarations"))
      [⟨origin, .ok snapshot⟩] := by
  refine (notes_notifyFrom s 2 .trace _).trans ⟨keeps_log _ _, time_log _ _, fun p x located at_ => ?_⟩
  exact at_.read?_log located _

end Session

/-- A part of a run that comes to some readings. -/
structure ComesTo (s : Session) (run : Session × Except InputFault Snapshot)
    (readings : List Reading) : Prop where
  result : run.2 = joined (readings.map Reading.result)
  notes : (∀ r ∈ readings, Succeeds r.result) → s.Notes run.1 readings

theorem readSnapshot_comesTo (s : Session) (origin : String) {content : ByteArray} {text : String}
    (shown : String.fromUTF8? content = some text) :
    ComesTo s (readSnapshot s origin text) [.of origin (some content)] := by
  unfold readSnapshot Reading.of readContent
  dsimp only
  rw [shown]
  dsimp only
  cases Snapshot.ofText text with
  | error why => exact ⟨rfl, fun _ => s.notes_failure origin _⟩
  | ok snapshot => exact ⟨(joined_singleton _).symm, fun _ => s.notes_success origin snapshot⟩

theorem readSnapshotFile_comesTo {s : Session} {p : Path} {content : ByteArray}
    (found : s.files.read? p = some content) :
    ComesTo s (readSnapshotFile s p) [.of p.text (some content)] := by
  unfold readSnapshotFile
  rw [found, Option.bind_some]
  cases shown : String.fromUTF8? content with
  | none =>
    have fails : Reading.of p.text (some content) = ⟨p.text, .error (.notText p.text)⟩ := by
      rw [Reading.of, readContent, shown]
    rw [fails]
    exact ⟨rfl, fun _ => s.notes_failure p.text _⟩
  | some text => exact readSnapshot_comesTo s p.text shown

theorem ComesTo.andThen {s : Session} {first : Session × Except InputFault Snapshot}
    {second : Session → Session × Except InputFault Snapshot} {a b : List Reading}
    (comes : ComesTo s first a) (next : ComesTo first.1 (second first.1) b) :
    ComesTo s (andThen first second) (a ++ b) := by
  obtain ⟨t, result⟩ := first
  obtain ⟨same, notes⟩ := comes
  obtain ⟨same', notes'⟩ := next
  dsimp only at same notes same' notes'
  cases result with
  | error e =>
    refine ⟨?_, fun succeed => ?_⟩
    · rw [List.map_append, joined_append, ← same]
      rfl
    · obtain ⟨read, rest, shape⟩ := joined_eq_error_iff.1 same.symm
      have among : .error e ∈ a.map Reading.result := by
        rw [shape]
        exact List.mem_append_right _ (List.mem_cons_self ..)
      obtain ⟨r, member, fails⟩ := List.mem_map.1 among
      have success := succeed r (List.mem_append_left _ member)
      rw [fails] at success
      exact (not_succeeds_error e success).elim
  | ok found =>
    rw [andThen_ok]
    refine ⟨?_, fun succeed => ?_⟩
    · rw [List.map_append, joined_append, ← same, ← same']
      cases (second t).2 <;> rfl
    · rw [List.forall_mem_append] at succeed
      exact (notes succeed.1).trans (notes' succeed.2)

theorem readSnapshotFiles_comesTo {s : Session} {files : List (Path × ByteArray)}
    (found : ∀ f ∈ files, ∀ t : Session, s.Keeps t → t.files.read? f.1 = some f.2) :
    ComesTo s (readSnapshotFiles s (files.map Prod.fst))
      (files.map fun f => .of f.1.text (some f.2)) := by
  induction files generalizing s with
  | nil => exact ⟨rfl, fun _ => Session.Notes.refl s⟩
  | cons f files ih =>
    have keeps := lasting_keeps.readSnapshotFile s f.1
    have rest := ih fun g member t later =>
      found g (List.mem_cons_of_mem _ member) t (keeps.trans later)
    have first := readSnapshotFile_comesTo (found f (List.mem_cons_self ..) s (Keeps.refl s))
    rw [List.map_cons, readSnapshotFiles_cons]
    exact first.andThen rest

end PluginDescriptor.CommandLine
