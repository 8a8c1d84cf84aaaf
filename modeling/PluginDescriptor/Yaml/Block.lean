import PluginDescriptor.Document
import PluginDescriptor.Yaml.Scalar

namespace PluginDescriptor.Yaml

/-- The number of bytes up to which a key is followed by its colon on the same line. -/
def longestSimpleKey : Nat := 128

/-- Whether the key and its colon stand on one line. -/
def isSimpleKey (key : String) : Bool :=
  !key.toList.any isBreak && key.utf8ByteSize ≤ longestSimpleKey

/-- The items of a list, one after the other, the first without its indentation. -/
def itemLines (indent : Nat) : List String → List Char
  | [] => []
  | [s] => '-' :: ' ' :: scalarLine (indent + 2) s.toList
  | s :: r =>
    '-' :: ' ' :: scalarLine (indent + 2) s.toList ++ spaces indent ++ itemLines indent r

mutual

/-- What follows a key and its colon. -/
def simpleValue (indent : Nat) : Value → List Char
  | .str s => ' ' :: scalarLine (indent + 2) s.toList
  | .bool b => if b then " true\n".toList else " false\n".toList
  | .list [] => " []\n".toList
  | .list items => '\n' :: spaces indent ++ itemLines indent items
  | .map [] => [' ', '\x7b', '\x7d', '\n']
  | .map entries => '\n' :: spaces (indent + 2) ++ entryLines (indent + 2) entries

/-- What follows the colon under a key that was introduced by a question mark. -/
def complexValue (indent : Nat) : Value → List Char
  | .str s => ' ' :: scalarLine (indent + 2) s.toList
  | .bool b => if b then " true\n".toList else " false\n".toList
  | .list [] => " []\n".toList
  | .list items => ' ' :: itemLines (indent + 2) items
  | .map [] => [' ', '\x7b', '\x7d', '\n']
  | .map entries => ' ' :: entryLines (indent + 2) entries

def entryLine (indent : Nat) (key : String) (v : Value) : List Char :=
  if isSimpleKey key then scalar (indent + 2) key.toList ++ ':' :: simpleValue indent v
  else
    '?' :: ' ' :: scalarLine (indent + 2) key.toList ++ spaces indent ++
      ':' :: complexValue indent v

/-- The entries of a map, one after the other, the first without its indentation. -/
def entryLines (indent : Nat) : List (String × Value) → List Char
  | [] => []
  | (k, v) :: r =>
    entryLine indent k v ++ (if r.isEmpty then [] else spaces indent ++ entryLines indent r)

end

def document (entries : List (String × Value)) : List Char :=
  match entries with
  | [] => ['\x7b', '\x7d', '\n']
  | _ => entryLines 0 entries

def render (d : Document) : String := String.ofList (document d.entries)

end PluginDescriptor.Yaml
