import PluginDescriptor.Build
import PluginDescriptor.Toml.Document

namespace PluginDescriptor

inductive Setting where
  | outputDir
  | artifactName
  | defaultVersion
  | toolId
  deriving DecidableEq, Repr

namespace Setting

/-- The settings in the order in which they are shown. -/
def all : List Setting := [outputDir, artifactName, defaultVersion, toolId]

def name : Setting → String
  | outputDir => "output-dir"
  | artifactName => "artifact-name"
  | defaultVersion => "default-version"
  | toolId => "tool-id"

def ofName? (s : String) : Option Setting := all.find? (·.name == s)

/-- The names of all settings, with commas between them. -/
def names : String := String.intercalate ", " (all.map name)

theorem ofName?_name (k : Setting) : ofName? k.name = some k := by cases k <;> decide

end Setting

/-- Why settings could not be read, changed or written. -/
inductive SettingsFault where
  | fileAccess
  | unreadable
  | unknownKey (key : String)
  deriving DecidableEq, Repr

def SettingsFault.message : SettingsFault → String
  | fileAccess => "IO error"
  | unreadable => "Failed to parse config"
  | unknownKey key => "Unknown config key: " ++ key ++ ". Supported keys: " ++ Setting.names

/-- A value for each setting that is set. -/
structure Settings where
  outputDir : Option String := none
  artifactName : Option String := none
  defaultVersion : Option String := none
  toolId : Option String := none
  deriving DecidableEq, Repr

namespace Settings

def get? (s : Settings) : Setting → Option String
  | .outputDir => s.outputDir
  | .artifactName => s.artifactName
  | .defaultVersion => s.defaultVersion
  | .toolId => s.toolId

def set (s : Settings) (k : Setting) (v : String) : Settings :=
  match k with
  | .outputDir => { s with outputDir := some v }
  | .artifactName => { s with artifactName := some v }
  | .defaultVersion => { s with defaultVersion := some v }
  | .toolId => { s with toolId := some v }

theorem get?_set (s : Settings) (k k' : Setting) (v : String) :
    (s.set k v).get? k' = if k' = k then some v else s.get? k' := by
  cases k <;> cases k' <;> simp [set, get?]

def getNamed? (s : Settings) (key : String) : Option String := (Setting.ofName? key).bind s.get?

def setNamed (s : Settings) (key v : String) : Except SettingsFault Settings :=
  match Setting.ofName? key with
  | none => .error (.unknownKey key)
  | some k => .ok (s.set k v)

def isEmpty (s : Settings) : Bool := Setting.all.all fun k => (s.get? k).isNone

/-- The names and values of the settings that are set. -/
def values (s : Settings) : List (String × String) :=
  Setting.all.filterMap fun k => (s.get? k).map fun v => (k.name, v)

/-- The document for the settings, a line for each of them. -/
def toToml (s : Settings) : String :=
  String.ofList (s.values.flatMap fun (key, v) =>
    key.toList ++ [' ', '=', ' '] ++ Toml.write v.toList ++ ['\n'])

/-- A setting in a document: unset, or a text. -/
def settingIn? (t : Toml.Table) (k : Setting) : Option (Option String) :=
  match Entries.find? k.name t with
  | none => some none
  | some (.text v) => some (some v)
  | some _ => none

/-- The settings in a document. -/
def ofToml? (text : String) : Option Settings := do
  let t ← Toml.parse text
  return { outputDir := ← settingIn? t .outputDir
           artifactName := ← settingIn? t .artifactName
           defaultVersion := ← settingIn? t .defaultVersion
           toolId := ← settingIn? t .toolId }

/-- What is built with: choices made for this run come first, then the settings. -/
def options (s : Settings) (output : Option Path) (defaultVersion : Option String) : Options :=
  let usual : Options := {}
  { outputRoot := (output <|> s.outputDir.map Path.mk).getD usual.outputRoot
    artifactName := s.artifactName.getD usual.artifactName
    defaultVersion := (defaultVersion <|> s.defaultVersion).getD usual.defaultVersion
    toolId := s.toolId.getD usual.toolId }

end Settings

/-- What a program finds out about its user. -/
structure Environment where
  home : Path
  /-- A path that the user gives for the settings, in place of the usual one. -/
  settingsPath : Option String := none

namespace Environment

/-- The directory for everything that is kept for the user. -/
def directory (e : Environment) : Path := (e.home.join ⟨".config"⟩).join ⟨"plugdesc"⟩

/-- The file of the settings. A blank path counts as not given. -/
def settingsFile (e : Environment) : Path :=
  let usual := e.directory.join ⟨"plugdesc.toml"⟩
  match e.settingsPath.map Text.trim with
  | none => usual
  | some "" => usual
  | some given => ⟨given⟩

def logFile (e : Environment) : Path := e.directory.join ⟨"plugdesc.log"⟩

end Environment

namespace Settings

/-- Reads settings from a file; without a file nothing is set. -/
def load (t : FileTree) (p : Path) : Except SettingsFault Settings :=
  if t.isThere p then
    match (t.read? p).bind String.fromUTF8? with
    | none => .error .fileAccess
    | some text =>
      match ofToml? text with
      | none => .error .unreadable
      | some s => .ok s
  else .ok {}

/-- Writes settings to a file and makes the directories above it. -/
def save (s : Settings) (t : FileTree) (p : Path) : FileTree × Except SettingsFault Unit :=
  match t.makeParents p with
  | (t, false) => (t, .error .fileAccess)
  | (t, true) =>
    match t.write? p s.toToml.toUTF8 with
    | none => (t, .error .fileAccess)
    | some t => (t, .ok ())

def change (t : FileTree) (p : Path) (key v : String) : FileTree × Except SettingsFault Unit :=
  match load t p with
  | .error e => (t, .error e)
  | .ok s =>
    match s.setNamed key v with
    | .error e => (t, .error e)
    | .ok s => s.save t p

end Settings

end PluginDescriptor
