import PluginDescriptor.Build
import PluginDescriptor.CommandLine.Arguments
import PluginDescriptor.CommandLine.Inputs

namespace PluginDescriptor.CommandLine

def version : String := "0.1.0"

def usage : String :=
  "Usage: plugdesc [-q] [-v]... [--no-log-file] <COMMAND>\n\n" ++
  "  generate -d PATH... [-o DIR] [--default-version VERSION] [--dry-run]\n" ++
  "  config show | set KEY VALUE | path\n"

inductive GenerateFault where
  | input (e : InputFault)
  /-- The user was told already. -/
  | build (e : Fault)
  deriving DecidableEq, Repr

/-- Whether the cause lies in the data from which a descriptor is made. Such a fault is left to the
diagnostics. -/
def GenerateFault.concernsDescriptor : GenerateFault → Bool
  | input (.invalid _ _) => true
  | input _ => false
  | build _ => true

/-- The settings of the user; if they cannot be read, nothing is set and the user is warned. -/
def loadSettings (s : Session) : Session × Settings :=
  match Settings.load s.files s.environment.settingsFile with
  | .ok settings => (s, settings)
  | .error e => (s.warn ("Failed to load config, using defaults: " ++ e.message), {})

/-- Prints a descriptor and writes nothing. -/
def printDescriptor (s : Session) (o : Options) (scanner : Scanner) :
    Session × Except GenerateFault Unit :=
  match assembleReporting scanner o.defaultVersion [] with
  | (.error e, reported) => (s.showDiagnostics reported, .error (.build e))
  | (.ok none, reported) =>
    ((s.showDiagnostics reported).info "No plugin main class found; nothing to render", .ok ())
  | (.ok (some d), reported) =>
    ((s.showDiagnostics reported).print ((o.stamp s.time).render d), .ok ())

def writeDescriptor (s : Session) (o : Options) (scanner : Scanner) :
    Session × Except GenerateFault Unit :=
  let result := build o s.time scanner s.files []
  let s := { s with files := result.files }.showDiagnostics result.reported
  match result.outcome with
  | .error e => (s, .error (.build e))
  | .ok .skipped => (s.info "No plugin main class found; nothing generated", .ok ())
  | .ok (.written p) => (s.success ("Generated " ++ p.text), .ok ())

def generate (s : Session) (a : GenerateArguments) : Session × Except GenerateFault Unit :=
  let (s, settings) := loadSettings s
  match loadSnapshots s a.declarations with
  | (s, .error e) => (s, .error (.input e))
  | (s, .ok snapshot) =>
    let options := settings.options a.output a.defaultVersion
    if a.dryRun then printDescriptor s options snapshot.scanner
    else writeDescriptor s options snapshot.scanner

/-- Tells the user why nothing was generated, unless the diagnostics do. -/
def tellFault (s : Session) (e : GenerateFault) : Session :=
  match e with
  | .input e' =>
    if e.concernsDescriptor then s else s.error ("Generate failed: " ++ e'.message)
  | .build _ => s

/-- Names the log file to the user, if there is one. -/
def nameLogFile (s : Session) : Session :=
  match s.logFile with
  | none => s
  | some p => s.notify .plain ("See " ++ p.text ++ " for details")

/-- Generates a descriptor and gives the exit status. -/
def runGenerate (s : Session) (a : GenerateArguments) : Session × Nat :=
  match generate s a with
  | (s, .ok ()) => (s, 0)
  | (s, .error e) => (nameLogFile (tellFault s e), 1)

def runSettings (s : Session) : SettingsAction → Session
  | .list =>
    match Settings.load s.files s.environment.settingsFile with
    | .error e => s.error ("Failed to load config: " ++ e.message)
    | .ok settings =>
      let s := s.print "Configuration:\n"
      if settings.isEmpty then
        if s.verbosity > 0 then s.print "  (empty)\n" else s
      else
        settings.values.foldl (fun s (key, v) => s.print ("  " ++ key ++ ": " ++ v ++ "\n")) s
  | .assign key v =>
    match Settings.change s.files s.environment.settingsFile key v with
    | (files, .ok ()) => { s with files }.success ("Set " ++ key ++ " = " ++ v)
    | (files, .error e) => { s with files }.error ("Failed to set " ++ key ++ ": " ++ e.message)
  | .locate =>
    (s.debug ("Known keys: " ++ Setting.names)).print (s.environment.settingsFile.text ++ "\n")

/-- Runs the program with its arguments and gives the exit status. -/
def run (s : Session) (args : List String) : Session × Nat :=
  match parse args with
  | none => (s.notify .plain usage, 2)
  | some .version => (s.print ("plugdesc " ++ version ++ "\n"), 0)
  | some .help => (s.print usage, 0)
  | some (.run chatter command) =>
    let s := s.open_ chatter.level (!chatter.noLogFile)
    match command with
    | .generate a => runGenerate s a
    | .settings action => (runSettings s action, 0)

end PluginDescriptor.CommandLine
