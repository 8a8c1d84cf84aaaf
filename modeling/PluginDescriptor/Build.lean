import PluginDescriptor.Artifact
import PluginDescriptor.Assembly
import PluginDescriptor.FileTree

namespace PluginDescriptor

/-- What is added to the name of a descriptor file, in place of its extension, while it is
written. -/
def temporaryExtension : String := "yml.tmp"

namespace FileTree

def discard (t : FileTree) (p : Path) : FileTree := (t.remove? p).getD t

/-- Makes the directories above a path, and says whether they are there. -/
def makeParents (t : FileTree) (p : Path) : FileTree × Bool :=
  match p.parent? with
  | none => (t, true)
  | some parent => t.makeDirectories parent

/-- Writes a file by way of a temporary one, and says whether it was done. -/
def replace (t : FileTree) (p : Path) (content : ByteArray) : FileTree × Bool :=
  match t.makeParents p with
  | (t, false) => (t, false)
  | (t, true) =>
    let temporary := p.withExtension temporaryExtension
    match t.write? temporary content with
    | none => (t.discard temporary, false)
    | some t =>
      match t.rename? temporary p with
      | none => (t.discard temporary, false)
      | some t => (t, true)

end FileTree

def Stamp.write (s : Stamp) (d : Document) (t : FileTree) (p : Path) :
    FileTree × Except Fault Unit :=
  match t.replace p (s.render d).toUTF8 with
  | (t, true) => (t, .ok ())
  | (t, false) => (t, .error .fileAccess)

inductive Outcome where
  /-- There was no entry point. -/
  | skipped
  | written (p : Path)
  deriving DecidableEq, Repr

structure BuildResult where
  outcome : Except Fault Outcome
  files : FileTree
  reported : List Diagnostic

/-- Assembles the descriptor of a program and writes its file under a stamp of the caller's choice.
Whatever goes wrong is reported. -/
def buildWith (o : Options) (stamp : Stamp) (s : Scanner) (t : FileTree)
    (reported : List Diagnostic) : BuildResult :=
  match assembleReporting s o.defaultVersion reported with
  | (.error e, reported) => ⟨.error e, t, reported⟩
  | (.ok none, reported) => ⟨.ok .skipped, t, reported⟩
  | (.ok (some d), reported) =>
    let (t, result) := stamp.write d t o.artifactPath
    ⟨result.map fun _ => .written o.artifactPath, t, report reported result⟩

/-- A build whose stamp is that of its options at this time. -/
def build (o : Options) (time : Timestamp) (s : Scanner) (t : FileTree)
    (reported : List Diagnostic) : BuildResult := buildWith o (o.stamp time) s t reported

/-- A build reports its fault and nothing else. -/
theorem buildWith_reported (o : Options) (stamp : Stamp) (s : Scanner) (t : FileTree)
    (reported : List Diagnostic) :
    (buildWith o stamp s t reported).reported =
      report reported (buildWith o stamp s t reported).outcome := by
  unfold buildWith assembleReporting
  cases assemble s o.defaultVersion with
  | error e => rfl
  | ok d =>
    cases d with
    | none => rfl
    | some d =>
      dsimp only [report]
      cases (stamp.write d t o.artifactPath).2 with
      | error e => rfl
      | ok => rfl

end PluginDescriptor
