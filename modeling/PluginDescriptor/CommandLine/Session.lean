import PluginDescriptor.Artifact
import PluginDescriptor.Assembly
import PluginDescriptor.FileTree
import PluginDescriptor.Settings

namespace PluginDescriptor.CommandLine

/-- What kind of message the user is shown. -/
inductive Grade where
  | plain
  | debug
  | trace
  | warning
  | error
  | success
  deriving DecidableEq, Repr

def Grade.label : Grade → String
  | plain => ""
  | debug => "DEBUG: "
  | trace => "TRACE: "
  | warning => "warning: "
  | error => "Error: "
  | success => "✔ "

/-- A message on the standard error output. -/
structure Notice where
  grade : Grade
  text : String
  deriving DecidableEq, Repr

def Notice.line (n : Notice) : String := n.grade.label ++ n.text ++ "\n"

/-- The state of a run: what it sees, and what it leaves behind. -/
structure Session where
  files : FileTree
  environment : Environment
  /-- The time that is written into files. -/
  time : Timestamp
  /-- What can still be read from the standard input. -/
  input : ByteArray := .empty
  /-- How many messages the user wants to see. -/
  verbosity : Nat := 0
  /-- The file that gets every message, if there is one. -/
  logFile : Option Path := none
  output : String := ""
  /-- The messages that the user was shown, in order. -/
  notices : List Notice := []

namespace Session

def errors (s : Session) : String := String.join (s.notices.map Notice.line)

/-- The most verbose of the messages that other parts of the program would show. -/
def filter (verbosity : Nat) : String :=
  if verbosity = 0 then "warn" else if verbosity = 1 then "debug" else "trace"

def print (s : Session) (text : String) : Session := { s with output := s.output ++ text }

def notify (s : Session) (grade : Grade) (text : String) : Session :=
  { s with notices := s.notices ++ [⟨grade, text⟩] }

/-- Appends a line to the log file. A log file that cannot be written is passed over. -/
def log (s : Session) (line : String) : Session :=
  match s.logFile with
  | none => s
  | some p =>
    let text := "[" ++ s.time.text "-" ++ "] " ++ line ++ "\n"
    match s.files.write? p ((s.files.read? p).getD .empty ++ text.toUTF8) with
    | none => s
    | some files => { s with files }

/-- Shows a message if the user wants to see messages of this level. -/
def notifyFrom (s : Session) (level : Nat) (grade : Grade) (text : String) : Session :=
  if level ≤ s.verbosity then s.notify grade text else s

def info (s : Session) (message : String) : Session :=
  (s.log ("INFO " ++ message)).notifyFrom 1 .plain message

def debug (s : Session) (message : String) : Session :=
  (s.log ("DEBUG " ++ message)).notifyFrom 1 .debug message

def warn (s : Session) (message : String) : Session :=
  (s.log ("WARN " ++ message)).notify .warning message

def error (s : Session) (message : String) : Session :=
  (s.log ("ERROR " ++ message)).notify .error message

def success (s : Session) (message : String) : Session :=
  (s.log ("SUCCESS " ++ message)).notify .success message

def trace (s : Session) (message : String) : Session :=
  (s.notifyFrom 2 .trace message).log ("STEP: " ++ message)

/-- A diagnostic as the user sees it. -/
def diagnosticText (d : Diagnostic) : String :=
  match d.origin with
  | none => d.message
  | some origin => d.message ++ "\n  --> " ++ origin

/-- Shows diagnostics to the user, one after the other. -/
def showDiagnostics (s : Session) (l : List Diagnostic) : Session :=
  l.foldl (fun s d => s.error (diagnosticText d)) s

/-- Starts a run. An old log file is removed; the new one is written with the first message. -/
def open_ (s : Session) (verbosity : Nat) (logToFile : Bool) : Session :=
  let s := { s with verbosity }
  if logToFile then
    match s.files.makeDirectories s.environment.directory with
    | (files, false) =>
      { s with files }.notify .plain
        "Warning: Failed to initialize logger: Failed to create config directory"
    | (files, true) =>
      let file := s.environment.logFile
      { s with files := (files.remove? file).getD files, logFile := some file }
  else s

end Session
end PluginDescriptor.CommandLine
