import PluginDescriptor.CommandLine.Program

namespace PluginDescriptor.System

open CommandLine

def placeText (at_ : Place) : String := "/" ++ String.intercalate "/" at_

/-- Adds what is at a place, and if `deep` all that is below it. -/
partial def look (t : FileTree) (at_ : Place) (deep : Bool) : IO FileTree := do
  let real? ← try some <$> IO.FS.realPath (placeText at_) catch _ => pure none
  match real? with
  | none => return t
  | some real =>
    if ← real.isDir then
      let t := t.put at_ .directory
      if deep then
        (← real.readDir).foldlM (fun t e => look t (at_ ++ [e.fileName]) true) t
      else return t
    else
      try return t.put at_ (.file (← IO.FS.readBinFile (placeText at_)))
      catch _ => return t

/-- Adds what a path leads to, with all directories above it. -/
def lookAlong (t : FileTree) (p : Path) (deep : Bool) : IO FileTree := do
  let rec along (t : FileTree) (at_ : Place) : List PathStep → IO FileTree
    | [] => if deep then look t at_ true else return t
    | .root :: r => along t [] r
    | .here :: r => along t at_ r
    | .up :: r => along t at_.dropLast r
    | .name s :: r => do along (← look t (at_ ++ [s]) false) (at_ ++ [s]) r
  along t (t.start p) p.steps

/-- Adds all that the program may look at. -/
def lookAround (start : Session) (a : GenerateArguments) : IO Session := do
  let files ← a.declarations.foldlM (fun t input => lookAlong t ⟨input⟩ true) start.files
  let settings := (loadSettings { start with files }).2
  let artifact := (settings.options a.output a.defaultVersion).artifactPath
  let files ← lookAlong files artifact false
  let files ← lookAlong files (artifact.withExtension temporaryExtension) false
  if a.declarations.contains standardInput then
    return { start with files, input := ← IO.FS.readBinFile "/dev/stdin" }
  else return { start with files }

/-- Makes one change. A file is complete before it gets its name. -/
def apply (c : FileTree.Change) : IO Unit := do
  let target := "/" ++ c.path
  match c with
  | .madeDirectory _ => IO.FS.createDirAll target
  | .removed _ => IO.FS.removeFile target
  | .wrote _ content =>
    IO.FS.writeBinFile (target ++ ".part") content
    IO.FS.rename (target ++ ".part") target

/-- Everything from the root of the files, instead of the working directory. -/
def fromRoot (t : FileTree) : FileTree := { t with workingDirectory := [] }

end PluginDescriptor.System

open PluginDescriptor in
def main (args : List String) : IO UInt32 := do
  let here : Path := ⟨(← IO.currentDir).toString⟩
  let home ← IO.getEnv "HOME"
  let environment : Environment :=
    { home := ⟨home.getD "/"⟩, settingsPath := ← IO.getEnv "PLUGDESC_CONFIG" }
  let now := (← (← IO.FS.realPath "/proc/self").metadata).modified.sec
  let files : FileTree := { workingDirectory := here.segments.filter (· ≠ "") }
  let files ← System.lookAlong files here false
  let files ← System.lookAlong files environment.settingsFile false
  let files ← System.lookAlong files environment.logFile false
  let start : CommandLine.Session := { files, environment, time := .ofSeconds now }
  let start ← match CommandLine.parse args with
    | some (.run _ (.generate a)) => System.lookAround start a
    | _ => pure start
  let (done, exit) := CommandLine.run start args
  IO.print done.output
  IO.eprint done.errors
  (FileTree.changes (System.fromRoot start.files) (System.fromRoot done.files)).forM System.apply
  return exit.toUInt32
