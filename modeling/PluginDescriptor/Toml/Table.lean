import PluginDescriptor.Entries

namespace PluginDescriptor.Toml

/-- How a table came to be. One that was made by a header is not extended by dotted keys, nor the other way
round. -/
inductive Origin where
  | header
  /-- By the header of a table inside it. -/
  | passed
  | dotted
  deriving DecidableEq, Repr

/-- What is known of a value: its text if it is one, and how it can be extended. -/
inductive Node where
  | text (s : String)
  /-- A value that can neither be extended nor be used as a text. -/
  | closed
  | table (origin : Origin) (entries : List (String × Node))
  /-- A list of tables, of which only the last one can be extended. -/
  | tables (last : List (String × Node))

abbrev Table : Type := List (String × Node)

namespace Table

/-- Adds a value under a key with the dotted keys before it. -/
def define (key : String) (value : Node) : (path : List String) → Table → Option Table
  | [], t =>
    match Entries.find? key t with
    | none => some (Entries.put key value t)
    | some _ => none
  | p :: ps, t =>
    match Entries.find? p t with
    | none => (define key value ps []).map fun inner => Entries.put p (.table .dotted inner) t
    | some (.table .dotted inner) =>
      (define key value ps inner).map fun inner => Entries.put p (.table .dotted inner) t
    | some (.table .passed inner) =>
      if ps.isEmpty then none
      else (define key value ps inner).map fun inner => Entries.put p (.table .passed inner) t
    | some (.tables last) =>
      if ps.isEmpty then none
      else (define key value ps last).map fun last => Entries.put p (.tables last) t
    | some _ => none

/-- Changes the table at a path. Tables on the way that are not there are made. -/
def modifyAt (f : Table → Option Table) : (path : List String) → Table → Option Table
  | [], t => f t
  | p :: ps, t =>
    match Entries.find? p t with
    | none => (modifyAt f ps []).map fun inner => Entries.put p (.table .passed inner) t
    | some (.table origin inner) =>
      (modifyAt f ps inner).map fun inner => Entries.put p (.table origin inner) t
    | some (.tables last) =>
      (modifyAt f ps last).map fun last => Entries.put p (.tables last) t
    | some _ => none

/-- Opens the table under a key, which no header and no dotted key has opened before. -/
def openTable (key : String) (t : Table) : Option Table :=
  match Entries.find? key t with
  | none => some (Entries.put key (.table .header []) t)
  | some (.table .passed inner) => some (Entries.put key (.table .header inner) t)
  | some _ => none

/-- Adds a table to the list of tables under a key. -/
def addTable (key : String) (t : Table) : Option Table :=
  match Entries.find? key t with
  | none => some (Entries.put key (.tables []) t)
  | some (.tables _) => some (Entries.put key (.tables []) t)
  | some _ => none

end Table
end PluginDescriptor.Toml
