import PluginDescriptor.OrderedMap
import PluginDescriptor.Path

namespace PluginDescriptor

/-- The names that lead from the root to a file or directory. -/
abbrev Place : Type := List String

inductive FileNode where
  | file (content : ByteArray)
  | directory

/-- Two files are the same if their bytes are. -/
instance : DecidableEq FileNode
  | .file a, .file b => decidable_of_iff (a.data = b.data) (by simp [ByteArray.ext_iff])
  | .file _, .directory => isFalse nofun
  | .directory, .file _ => isFalse nofun
  | .directory, .directory => isTrue rfl

/-- What is at every place but the root, and the working directory. There are regular files and directories
and nothing else. -/
structure FileTree where
  nodes : OrderedMap Place FileNode := ∅
  workingDirectory : Place := []

namespace FileTree

/-- The longest name of a file, in bytes. -/
def longestName : Nat := 255

def pathLimit : Nat := 4096

/-- What is at a place; the root is a directory. -/
def node? (t : FileTree) (at_ : Place) : Option FileNode :=
  if at_ = [] then some .directory else t.nodes.get? at_

def isDirectoryAt (t : FileTree) (at_ : Place) : Bool := t.node? at_ == some .directory

def put (t : FileTree) (at_ : Place) (n : FileNode) : FileTree :=
  { t with nodes := t.nodes.insert at_ n }

def drop (t : FileTree) (at_ : Place) : FileTree := { t with nodes := t.nodes.erase at_ }

/-- A path that names something: it is neither empty nor too long and has no null character. -/
def isUsable (p : Path) : Bool :=
  p.text != "" && p.text.utf8ByteSize < pathLimit && !p.text.toList.contains '\x00'

/-- Follows the texts between the slashes of a path. Each of them, the empty ones included, has to
come after a directory. -/
def follow (t : FileTree) : Place → List String → Option Place
  | at_, [] => some at_
  | at_, s :: r =>
    if !t.isDirectoryAt at_ then none
    else if s = "" ∨ s = "." then t.follow at_ r
    else if s = ".." then t.follow at_.dropLast r
    else if s.utf8ByteSize > longestName then none
    else t.follow (at_ ++ [s]) r

def start (t : FileTree) (p : Path) : Place := if p.isAbsolute then [] else t.workingDirectory

/-- The place that a path leads to. Everything above it is there. -/
def locate? (t : FileTree) (p : Path) : Option Place :=
  if isUsable p then t.follow (t.start p) p.segments else none

def lookup? (t : FileTree) (p : Path) : Option FileNode := (t.locate? p).bind t.node?

def isThere (t : FileTree) (p : Path) : Bool := (t.lookup? p).isSome

def isDirectory (t : FileTree) (p : Path) : Bool := t.lookup? p == some .directory

def read? (t : FileTree) (p : Path) : Option ByteArray :=
  match t.lookup? p with
  | some (.file content) => some content
  | _ => none

/-- Writes a file, which is made if it is not there. -/
def write? (t : FileTree) (p : Path) (content : ByteArray) : Option FileTree :=
  match t.locate? p with
  | none => none
  | some at_ => if t.isDirectoryAt at_ then none else some (t.put at_ (.file content))

def remove? (t : FileTree) (p : Path) : Option FileTree :=
  match t.locate? p with
  | none => none
  | some at_ =>
    match t.node? at_ with
    | some (.file _) => some (t.drop at_)
    | _ => none

/-- Moves a file to another place, where it replaces a file that is there. -/
def rename? (t : FileTree) (source target : Path) : Option FileTree :=
  match t.locate? source, t.locate? target with
  | some a, some b =>
    match t.node? a with
    | some (.file content) =>
      if t.isDirectoryAt b then none else some ((t.drop a).put b (.file content))
    | _ => none
  | _, _ => none

/-- Makes the directories along the steps of a path, and says whether all of them are there. -/
def makeAlong : FileTree → Place → List PathStep → FileTree × Bool
  | t, _, [] => (t, true)
  | t, _, .root :: r => makeAlong t [] r
  | t, at_, .here :: r => makeAlong t at_ r
  | t, at_, .up :: r => makeAlong t at_.dropLast r
  | t, at_, .name s :: r =>
    if s.utf8ByteSize > longestName then (t, false)
    else
      match t.node? (at_ ++ [s]) with
      | some .directory => makeAlong t (at_ ++ [s]) r
      | some (.file _) => (t, false)
      | none => makeAlong (t.put (at_ ++ [s]) .directory) (at_ ++ [s]) r

/-- Makes a directory and those above it, and says whether it is there. The empty path needs
none. -/
def makeDirectories (t : FileTree) (p : Path) : FileTree × Bool :=
  if p.text = "" then (t, true)
  else if isUsable p then t.makeAlong (t.start p) p.steps
  else (t, false)

/-- The places below a directory at which files are, each by the names that lead to it from the
directory. -/
def filesBelow (t : FileTree) (at_ : Place) : List (List String) :=
  t.nodes.entries.filterMap fun (q, n) =>
    match n with
    | .file _ => if at_.isPrefixOf q then some (q.drop at_.length) else none
    | .directory => none

/-- One way in which a tree differs from an earlier one. The text is the path from the working
directory; that of a directory ends in a slash. -/
inductive Change where
  | wrote (path : String) (content : ByteArray)
  | madeDirectory (path : String)
  | removed (path : String)

def Change.path : Change → String
  | wrote p _ => p
  | madeDirectory p => p
  | removed p => p

/-- The path from the working directory to something below it. -/
def pathText? (t : FileTree) (at_ : Place) (n : FileNode) : Option String :=
  if t.workingDirectory.isPrefixOf at_ then
    let names := String.intercalate "/" (at_.drop t.workingDirectory.length)
    match n with
    | .file _ => some names
    | .directory => some (names ++ "/")
  else none

/-- Puts a change in its place among others that are sorted by their paths. -/
def insertChange (c : Change) : List Change → List Change
  | [] => [c]
  | d :: r => if c.path ≤ d.path then c :: d :: r else d :: insertChange c r

/-- What has changed below the working directory, in the order of the paths. -/
def changes (before after : FileTree) : List Change :=
  let gone := before.nodes.entries.filterMap fun (at_, n) =>
    match n, after.nodes.get? at_ with
    | .file _, some (.file _) => none
    | .directory, some .directory => none
    | n, _ => (before.pathText? at_ n).map Change.removed
  let come := after.nodes.entries.filterMap fun (at_, n) =>
    if before.nodes.get? at_ = some n then none
    else (after.pathText? at_ n).map fun text =>
      match n with
      | .file content => Change.wrote text content
      | .directory => Change.madeDirectory text
  (gone ++ come).foldr insertChange []

end FileTree
end PluginDescriptor
