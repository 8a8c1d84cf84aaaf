import Mathlib.Data.String.Basic
import Mathlib.Tactic.SplitIfs

namespace PluginDescriptor.Text

theorem ofNat_lt_ofNat {m n : Nat} (small : m < 256) (small' : n < 256) :
    UInt8.ofNat m < UInt8.ofNat n ↔ m < n := by
  rw [UInt8.lt_iff_toNat_lt, UInt8.toNat_ofNat', UInt8.toNat_ofNat', Nat.mod_eq_of_lt small,
    Nat.mod_eq_of_lt small']

theorem ofNat_eq_ofNat {m n : Nat} (small : m < 256) (small' : n < 256) :
    UInt8.ofNat m = UInt8.ofNat n ↔ m = n := by
  rw [← UInt8.toNat_inj, UInt8.toNat_ofNat', UInt8.toNat_ofNat', Nat.mod_eq_of_lt small,
    Nat.mod_eq_of_lt small']

theorem toNat_lt (c : Char) : c.toNat < 0x110000 := by
  have valid := c.valid
  simp only [UInt32.isValidChar, Nat.isValidChar] at valid
  have same : c.toNat = c.val.toNat := rfl
  omega

/-- The bytes of two characters differ before either of them ends. -/
theorem utf8EncodeChar_lt {c d : Char} (less : c < d) (r s : List UInt8) :
    String.utf8EncodeChar c ++ r < String.utf8EncodeChar d ++ s := by
  have less' : c.toNat < d.toNat := less
  -- The code points in digits of six bits, as the bytes hold them.
  have digits (c : Char) : c.toNat / 64 / 64 = c.toNat / 4096 ∧
      c.toNat / 4096 / 64 = c.toNat / 262144 ∧ c.toNat / 262144 % 8 = c.toNat / 262144 := by
    have bound := toNat_lt c
    omega
  have digitsC := digits c
  have digitsD := digits d
  simp only [String.utf8EncodeChar, Char.toNat_val, digitsC.2.2, digitsD.2.2]
  split_ifs <;>
    simp (disch := omega) only [List.cons_append, List.cons_lt_cons_iff, ofNat_lt_ofNat,
      ofNat_eq_ofNat] <;>
    omega

/-- The bytes of a text in UTF-8. -/
def bytes (s : String) : List UInt8 := s.toUTF8.data.toList

theorem bytes_eq (s : String) : bytes s = s.toList.flatMap String.utf8EncodeChar := by
  conv => lhs; rw [bytes, ← String.ofList_toList (s := s)]
  rw [String.toUTF8_eq_toByteArray, String.toByteArray_ofList, List.utf8Encode,
    List.data_toByteArray]

theorem flatMap_utf8EncodeChar_lt {l m : List Char} (less : l < m) :
    l.flatMap String.utf8EncodeChar < m.flatMap String.utf8EncodeChar := by
  induction less with
  | @nil c l =>
    obtain ⟨b, r, shape⟩ := List.exists_cons_of_ne_nil (@String.utf8EncodeChar_ne_nil c)
    rw [List.flatMap_cons, shape]
    exact List.nil_lt_cons ..
  | rel earlier =>
    rw [List.flatMap_cons, List.flatMap_cons]
    exact utf8EncodeChar_lt earlier _ _
  | cons _ ih =>
    rw [List.flatMap_cons, List.flatMap_cons]
    exact List.append_left_lt ih

theorem bytes_lt_of_lt {s t : String} (less : s < t) : bytes s < bytes t := by
  rw [bytes_eq, bytes_eq]
  exact flatMap_utf8EncodeChar_lt (String.lt_iff.1 less)

theorem bytes_lt_bytes {s t : String} : bytes s < bytes t ↔ s < t := by
  refine ⟨fun less => ?_, bytes_lt_of_lt⟩
  rcases lt_trichotomy s t with earlier | rfl | later
  · exact earlier
  · exact (List.lt_irrefl _ less).elim
  · exact (List.lt_asymm less (bytes_lt_of_lt later)).elim

theorem bytes_injective : Function.Injective bytes := by
  intro s t same
  rcases lt_trichotomy s t with earlier | rfl | later
  · exact (List.lt_irrefl _ (same ▸ bytes_lt_of_lt earlier)).elim
  · rfl
  · exact (List.lt_irrefl _ (same ▸ bytes_lt_of_lt later)).elim

end PluginDescriptor.Text
