import PluginDescriptor.OrderedMap

namespace PluginDescriptor

/-- A value in a descriptor. The entries of a map are kept as a list; `Value.ofMap` gives them
pairwise distinct keys. -/
inductive Value where
  | str (s : String)
  | bool (b : Bool)
  | list (items : List String)
  | map (entries : List (String × Value))
  deriving Repr

abbrev Document : Type := OrderedMap String Value

namespace Value

mutual

def decEq : (a b : Value) → Decidable (a = b)
  | .str a, .str b => decidable_of_iff (a = b) (by simp)
  | .bool a, .bool b => decidable_of_iff (a = b) (by simp)
  | .list a, .list b => decidable_of_iff (a = b) (by simp)
  | .map a, .map b => @decidable_of_iff _ (a = b) (by simp) (decEqEntries a b)
  | .str _, .bool _ => isFalse nofun
  | .str _, .list _ => isFalse nofun
  | .str _, .map _ => isFalse nofun
  | .bool _, .str _ => isFalse nofun
  | .bool _, .list _ => isFalse nofun
  | .bool _, .map _ => isFalse nofun
  | .list _, .str _ => isFalse nofun
  | .list _, .bool _ => isFalse nofun
  | .list _, .map _ => isFalse nofun
  | .map _, .str _ => isFalse nofun
  | .map _, .bool _ => isFalse nofun
  | .map _, .list _ => isFalse nofun

def decEqEntries : (a b : List (String × Value)) → Decidable (a = b)
  | [], [] => isTrue rfl
  | [], _ :: _ => isFalse nofun
  | _ :: _, [] => isFalse nofun
  | (k, a) :: r, (l, b) :: s =>
    @decidable_of_iff _ (k = l ∧ a = b ∧ r = s) (by simp [and_assoc])
      (@instDecidableAnd _ _ _ (@instDecidableAnd _ _ (decEq a b) (decEqEntries r s)))

end

instance : DecidableEq Value := decEq

def ofMap (m : OrderedMap String Value) : Value := .map m.entries

def asText? : Value → Option String
  | str s => some s
  | _ => none

def asFlag? : Value → Option Bool
  | bool b => some b
  | _ => none

def asList? : Value → Option (List String)
  | list items => some items
  | _ => none

def asEntries? : Value → Option (List (String × Value))
  | map entries => some entries
  | _ => none

end Value
end PluginDescriptor
