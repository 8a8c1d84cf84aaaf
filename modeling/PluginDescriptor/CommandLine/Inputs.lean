import PluginDescriptor.CommandLine.Session
import PluginDescriptor.Declaration.Json

namespace PluginDescriptor.CommandLine

inductive InputFault where
  | missing (input : String)
  | notText (input : String)
  | invalid (input : String) (why : Json.Fault)
  deriving DecidableEq, Repr

namespace InputFault

/-- What was being done when an input failed. -/
def context : InputFault → String
  | missing input => "Declaration snapshot not found: " ++ input
  | notText input => "Failed to read declaration snapshot " ++ input
  | invalid input _ => "Invalid declaration snapshot " ++ input

def message (e : InputFault) : String :=
  match e with
  | missing _ => e.context
  | notText _ => e.context ++ ": stream did not contain valid UTF-8"
  | invalid _ why => e.context ++ ": " ++ (Fault.unreadableSnapshot why).message

end InputFault

def standardInput : String := "-"

/-- Puts a path in its place among others that are in order. -/
def insertPath (p : Path) : List Path → List Path
  | [] => [p]
  | q :: r => if q.before p then q :: insertPath p r else p :: q :: r

/-- The snapshot files below a directory, in the order of their paths. -/
def snapshotFiles (t : FileTree) (directory : Path) : List Path :=
  match t.locate? directory with
  | none => []
  | some at_ =>
    let paths := (t.filesBelow at_).map fun names =>
      names.foldl (fun p name => p.join ⟨name⟩) directory
    (paths.filter fun p => p.extension? = some "json").foldr insertPath []

def readSnapshot (s : Session) (origin text : String) : Session × Except InputFault Snapshot :=
  match Snapshot.ofText text with
  | .error why => (s, .error (.invalid origin why))
  | .ok snapshot =>
    (s.trace (origin ++ ": " ++ toString snapshot.declarations.length ++ " declarations"),
      .ok snapshot)

def readSnapshotFile (s : Session) (p : Path) : Session × Except InputFault Snapshot :=
  match (s.files.read? p).bind String.fromUTF8? with
  | none => (s, .error (.notText p.text))
  | some text => readSnapshot s p.text text

def readSnapshotFiles (s : Session) : List Path → Session × Except InputFault Snapshot
  | [] => (s, .ok {})
  | p :: r =>
    match readSnapshotFile s p with
    | (s, .error e) => (s, .error e)
    | (s, .ok first) =>
      match readSnapshotFiles s r with
      | (s, .error e) => (s, .error e)
      | (s, .ok rest) => (s, .ok (first ++ rest))

/-- The snapshot in the standard input, of which nothing is left. -/
def readStandardInput (s : Session) : Session × Except InputFault Snapshot :=
  let rest := { s with input := .empty }
  match String.fromUTF8? s.input with
  | none => (rest, .error (.notText "from stdin"))
  | some text => readSnapshot rest "<stdin>" text

/-- The snapshots of one input, joined. -/
def readInput (s : Session) (input : String) : Session × Except InputFault Snapshot :=
  let p : Path := ⟨input⟩
  if input = standardInput then readStandardInput s
  else if s.files.isDirectory p then readSnapshotFiles s (snapshotFiles s.files p)
  else if s.files.isThere p then readSnapshotFile s p
  else (s, .error (.missing input))

def readInputs (s : Session) : List String → Session × Except InputFault Snapshot
  | [] => (s, .ok {})
  | input :: r =>
    match readInput s input with
    | (s, .error e) => (s, .error e)
    | (s, .ok first) =>
      match readInputs s r with
      | (s, .error e) => (s, .error e)
      | (s, .ok rest) => (s, .ok (first ++ rest))

/-- Reads all inputs and says how much was found. -/
def loadSnapshots (s : Session) (inputs : List String) : Session × Except InputFault Snapshot :=
  match readInputs s inputs with
  | (s, .error e) => (s, .error e)
  | (s, .ok snapshot) =>
    (s.debug ("Loaded " ++ toString snapshot.declarations.length ++ " declarations from " ++
        toString inputs.length ++ " input(s)"),
      .ok snapshot)

end PluginDescriptor.CommandLine
