import PluginDescriptor.Marker
import PluginDescriptor.Text

namespace PluginDescriptor

/-- The value of a field: a flag, a text, several values, or an annotation. -/
inductive AnnotationValue where
  | bool (b : Bool)
  | str (s : String)
  | array (items : List AnnotationValue)
  | nested (marker : Marker) (fields : List (String × AnnotationValue))
  deriving Repr

/-- One annotation: its marker and its fields. -/
structure Annotation where
  marker : Marker
  fields : List (String × AnnotationValue) := []
  deriving Repr

namespace AnnotationValue

mutual

/-- Equality of values can be decided, by recursion on both. -/
def decEq : (a b : AnnotationValue) → Decidable (a = b)
  | .bool a, .bool b => decidable_of_iff (a = b) (by simp)
  | .str a, .str b => decidable_of_iff (a = b) (by simp)
  | .array a, .array b => @decidable_of_iff _ (a = b) (by simp) (decEqItems a b)
  | .nested m a, .nested n b =>
    @decidable_of_iff _ (m = n ∧ a = b) (by simp) (@instDecidableAnd _ _ _ (decEqFields a b))
  | .bool _, .str _ => isFalse nofun
  | .bool _, .array _ => isFalse nofun
  | .bool _, .nested _ _ => isFalse nofun
  | .str _, .bool _ => isFalse nofun
  | .str _, .array _ => isFalse nofun
  | .str _, .nested _ _ => isFalse nofun
  | .array _, .bool _ => isFalse nofun
  | .array _, .str _ => isFalse nofun
  | .array _, .nested _ _ => isFalse nofun
  | .nested _ _, .bool _ => isFalse nofun
  | .nested _ _, .str _ => isFalse nofun
  | .nested _ _, .array _ => isFalse nofun

def decEqItems : (a b : List AnnotationValue) → Decidable (a = b)
  | [], [] => isTrue rfl
  | [], _ :: _ => isFalse nofun
  | _ :: _, [] => isFalse nofun
  | a :: r, b :: s =>
    @decidable_of_iff _ (a = b ∧ r = s) (by simp) (@instDecidableAnd _ _ (decEq a b) (decEqItems r s))

def decEqFields : (a b : List (String × AnnotationValue)) → Decidable (a = b)
  | [], [] => isTrue rfl
  | [], _ :: _ => isFalse nofun
  | _ :: _, [] => isFalse nofun
  | (k, a) :: r, (l, b) :: s =>
    @decidable_of_iff _ (k = l ∧ a = b ∧ r = s) (by simp [and_assoc])
      (@instDecidableAnd _ _ _ (@instDecidableAnd _ _ (decEq a b) (decEqFields r s)))

end

instance : DecidableEq AnnotationValue := decEq

mutual

/-- No annotation inside the value has two fields of one name. -/
def WellFormed : AnnotationValue → Prop
  | .bool _ => True
  | .str _ => True
  | .array items => WellFormedItems items
  | .nested _ fields => (fields.map Prod.fst).Nodup ∧ WellFormedFields fields

def WellFormedItems : List AnnotationValue → Prop
  | [] => True
  | v :: r => v.WellFormed ∧ WellFormedItems r

def WellFormedFields : List (String × AnnotationValue) → Prop
  | [] => True
  | (_, v) :: r => v.WellFormed ∧ WellFormedFields r

end

end AnnotationValue

namespace Annotation

deriving instance DecidableEq for Annotation

/-- An annotation as the value of a field. -/
def toValue (a : Annotation) : AnnotationValue := .nested a.marker a.fields

/-- No two fields have one name, at any depth. -/
def WellFormed (a : Annotation) : Prop := a.toValue.WellFormed

end Annotation

namespace AnnotationValue

def listed (texts : List String) : String := String.intercalate ", " texts

mutual

/-- A value with the kind of each of its parts. -/
def describe : AnnotationValue → String
  | .bool b => "Bool(" ++ (if b then "true" else "false") ++ ")"
  | .str s => "Str(" ++ Text.quoted s ++ ")"
  | .array items => "Array([" ++ listed (describeItems items) ++ "])"
  | .nested m fields =>
    "Nested(AnnotationRecord \x7b marker: " ++ m.name ++ ", fields: \x7b" ++
      listed (describeFields fields) ++ "\x7d \x7d)"

def describeItems : List AnnotationValue → List String
  | [] => []
  | v :: r => v.describe :: describeItems r

def describeFields : List (String × AnnotationValue) → List String
  | [] => []
  | (k, v) :: r => (Text.quoted k ++ ": " ++ v.describe) :: describeFields r

end

end AnnotationValue

end PluginDescriptor
