import PluginDescriptor.Path
import PluginDescriptor.Yaml.Block

namespace PluginDescriptor

/-- A point in time as descriptors and logs show it. -/
structure Timestamp where
  year : Int
  month : Nat
  day : Nat
  hour : Nat
  minute : Nat
  second : Nat
  deriving DecidableEq, Repr

namespace Timestamp

/-- The number of days in the 400 years after which the calendar repeats. -/
def daysInCycle : Nat := 146097

/-- The date that lies this many days after the first of March of the year 0. A year that starts in
March has its leap day at the end, so its months have the same lengths every year. -/
def ofDays (days : Int) : Int × Nat × Nat :=
  let cycle := days / daysInCycle
  let day := (days % daysInCycle).toNat
  let year := (day - day / 1460 + day / 36524 - day / 146096) / 365
  let dayOfYear := day - (365 * year + year / 4 - year / 100)
  let month := (5 * dayOfYear + 2) / 153
  let dayOfMonth := dayOfYear - (153 * month + 2) / 5 + 1
  if month < 10 then (cycle * 400 + year, month + 3, dayOfMonth)
  else (cycle * 400 + year + 1, month - 9, dayOfMonth)

/-- The time this many seconds after the beginning of 1970, in universal time. -/
def ofSeconds (seconds : Int) : Timestamp :=
  let (year, month, day) := ofDays (seconds / 86400 + 719468)
  let rest := (seconds % 86400).toNat
  { year, month, day, hour := rest / 3600, minute := rest / 60 % 60, second := rest % 60 }

/-- A number with zeros in front up to a width. -/
def padded (width n : Nat) : String :=
  let ds := Nat.toDigits 10 n
  String.ofList (List.replicate (width - ds.length) '0' ++ ds)

/-- Four digits; a year outside of them has a sign. -/
def yearText (year : Int) : String :=
  let sign := if year < 0 then "-" else if year > 9999 then "+" else ""
  sign ++ padded 4 year.natAbs

/-- Date and time, with a separator between the parts of the date. -/
def text (t : Timestamp) (separator : String) : String :=
  yearText t.year ++ separator ++ padded 2 t.month ++ separator ++ padded 2 t.day ++ " " ++
    padded 2 t.hour ++ ":" ++ padded 2 t.minute ++ ":" ++ padded 2 t.second

end Timestamp

/-- What the comment at the head of a descriptor file says. -/
structure Stamp where
  toolId : String
  artifactName : String
  time : Timestamp
  deriving DecidableEq, Repr

namespace Stamp

/-- The comment and the empty line after it. -/
def header (s : Stamp) : String :=
  "# Auto-generated " ++ s.artifactName ++ ", generated at " ++ s.time.text "/" ++ " by " ++
    s.toolId ++ "\n\n"

def render (s : Stamp) (d : Document) : String := s.header ++ Yaml.render d

end Stamp

/-- Where the descriptor goes, what the file is called, and two texts that are written into it. -/
structure Options where
  outputRoot : Path := ⟨"."⟩
  artifactName : String := "plugin.yml"
  defaultVersion : String := "v0.0"
  toolId : String := "plugdesc::Aggregator"
  deriving DecidableEq, Repr

namespace Options

def artifactPath (o : Options) : Path := o.outputRoot.join ⟨o.artifactName⟩

def stamp (o : Options) (time : Timestamp) : Stamp := ⟨o.toolId, o.artifactName, time⟩

end Options

end PluginDescriptor
