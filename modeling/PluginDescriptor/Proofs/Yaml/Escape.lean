import PluginDescriptor.Yaml.Scalar

namespace PluginDescriptor.Yaml

theorem numberFrom?_append (base acc : Nat) (l m : List Char) :
    numberFrom? base acc (l ++ m) = (numberFrom? base acc l).bind (numberFrom? base · m) := by
  induction l generalizing acc with
  | nil => rfl
  | cons c r ih =>
    rw [List.cons_append, numberFrom?, numberFrom?]
    cases digitValue? base c with
    | none => rfl
    | some d => exact ih _

theorem numberFrom?_zeros (base k : Nat) (positive : 0 < base) (l : List Char) :
    numberFrom? base 0 (List.replicate k '0' ++ l) = numberFrom? base 0 l := by
  induction k with
  | zero => rfl
  | succ k ih =>
    have zero : digitValue? base '0' = some 0 := by simp [digitValue?, positive]
    rw [List.replicate_succ, List.cons_append, numberFrom?, zero]
    simpa using ih

theorem digitValue?_digitChar {d : Nat} (bound : d < 16) :
    digitValue? 16 d.digitChar.toUpper = some d := by
  have each : ∀ e : Fin 16, digitValue? 16 e.val.digitChar.toUpper = some e.val := by decide
  exact each ⟨d, bound⟩

theorem numberFrom?_toDigits (n : Nat) :
    numberFrom? 16 0 ((Nat.toDigits 16 n).map Char.toUpper) = some n := by
  induction n using Nat.strongRecOn with
  | ind n ih =>
    rw [Nat.toDigits_eq_if (by decide)]
    split
    · next small => simp [numberFrom?, digitValue?_digitChar small]
    · next large =>
      have high := ih (n / 16) (by omega)
      have low := digitValue?_digitChar (Nat.mod_lt n (by decide : 0 < 16))
      rw [List.map_append, numberFrom?_append, high]
      simp only [List.map_cons, List.map_nil, Option.bind_some, numberFrom?, low]
      congr 1
      omega

/-- Padding with zeros does not change the number. -/
theorem numberFrom?_hexPadded (width n : Nat) : numberFrom? 16 0 (hexPadded width n) = some n := by
  rw [hexPadded, numberFrom?_zeros 16 _ (by decide), numberFrom?_toDigits]

theorem hexPadded_length {width n : Nat} (positive : 0 < width) (bound : n < Nat.pow 16 width) :
    (hexPadded width n).length = width := by
  have fits := (Nat.length_toDigits_le_iff (by decide) positive).2 bound
  simp only [hexPadded, List.length_append, List.length_replicate, List.length_map]
  omega

/-- The letters of the short escapes and what they stand for. -/
def shortEscapes : List (Char × Char) :=
  [('0', '\x00'), ('a', '\x07'), ('b', '\x08'), ('t', '\t'), ('n', '\n'), ('v', '\x0b'),
    ('f', '\x0c'), ('r', '\r'), ('e', '\x1b'), ('"', '"'), ('\\', '\\'), ('N', '\x85'),
    ('L', '\u2028'), ('P', '\u2029')]

/-- The letter after which so many hexadecimal digits follow. -/
def hexMark : Nat → Char
  | 2 => 'x'
  | 4 => 'u'
  | _ => 'U'

theorem escape_cases (c : Char) :
    (∃ letter, shortEscapes.lookup letter = some c ∧ escape c = ['\\', letter]) ∨
      ∃ width, (width = 2 ∨ width = 4 ∨ width = 8) ∧ c.toNat < Nat.pow 16 width ∧
        escape c = '\\' :: hexMark width :: hexPadded width c.toNat := by
  unfold escape
  split
  iterate 14 · exact Or.inl ⟨_, by decide, rfl⟩
  right
  have bound : c.toNat < Nat.pow 16 8 := c.val.toNat_lt
  split
  · next small => exact ⟨2, by simp, Nat.lt_of_le_of_lt small (by decide), rfl⟩
  · split
    · next small => exact ⟨4, by simp, Nat.lt_of_le_of_lt small (by decide), rfl⟩
    · exact ⟨8, by simp, bound, rfl⟩

/-- An escape ends where it ends whatever follows, and no two characters have the same. -/
theorem escape_append_inj {c d : Char} {r s : List Char}
    (same : escape c ++ r = escape d ++ s) : c = d ∧ r = s := by
  have unmarked (width : Nat) (known : width = 2 ∨ width = 4 ∨ width = 8) :
      shortEscapes.lookup (hexMark width) = none := by
    rcases known with rfl | rfl | rfl <;> decide
  rcases escape_cases c with ⟨l, forC, textC⟩ | ⟨v, widthC, boundC, textC⟩ <;>
    rcases escape_cases d with ⟨m, forD, textD⟩ | ⟨w, widthD, boundD, textD⟩ <;>
    rw [textC, textD] at same <;>
    simp only [List.cons_append, List.nil_append, List.cons.injEq, true_and] at same
  · obtain ⟨rfl, rest⟩ := same
    rw [forC, Option.some.injEq] at forD
    exact ⟨forD, rest⟩
  · rw [same.1, unmarked w widthD] at forC
    cases forC
  · rw [← same.1, unmarked v widthC] at forD
    cases forD
  · obtain ⟨mark, rest⟩ := same
    have width : v = w := by
      revert mark
      rcases widthC with rfl | rfl | rfl <;> rcases widthD with rfl | rfl | rfl <;> decide
    subst width
    have positive : 0 < v := by omega
    have lengths := (hexPadded_length positive boundC).trans (hexPadded_length positive boundD).symm
    obtain ⟨digits, rest⟩ := List.append_inj rest lengths
    have number := congrArg (numberFrom? 16 0) digits
    rw [numberFrom?_hexPadded, numberFrom?_hexPadded, Option.some.injEq] at number
    exact ⟨Char.toNat_inj.1 number, rest⟩

/-- One character between double quotes can be told from what follows it. -/
theorem doubleChar_append_inj {c d : Char} {r s : List Char}
    (same : doubleChar c ++ r = doubleChar d ++ s) : c = d ∧ r = s := by
  have opened (e : Char) : ∃ rest, escape e = '\\' :: rest := by
    rcases escape_cases e with ⟨_, _, text⟩ | ⟨_, _, _, text⟩ <;> exact ⟨_, text⟩
  unfold doubleChar at same
  split at same
  · split at same
    · exact escape_append_inj same
    · next plain =>
      obtain ⟨rest, text⟩ := opened c
      rw [text] at same
      simp only [List.cons_append, List.nil_append, List.cons.injEq] at same
      simp [← same.1] at plain
  · next plain =>
    split at same
    · obtain ⟨rest, text⟩ := opened d
      rw [text] at same
      simp only [List.cons_append, List.nil_append, List.cons.injEq] at same
      simp [same.1] at plain
    · simpa using same

theorem doubleChar_ne_quote (c : Char) : ∃ d rest, doubleChar c = d :: rest ∧ d ≠ '"' := by
  unfold doubleChar
  split
  · rcases escape_cases c with ⟨_, _, text⟩ | ⟨_, _, _, text⟩ <;> exact ⟨_, _, text, by decide⟩
  · next plain => exact ⟨c, [], rfl, by rintro rfl; simp at plain⟩

/-- A text in double quotes ends at its closing quote. -/
theorem doubleBody_cancel {s t r r' : List Char}
    (same : s.flatMap doubleChar ++ '"' :: r = t.flatMap doubleChar ++ '"' :: r') :
    s = t ∧ r = r' := by
  induction s generalizing t with
  | nil => cases t with
    | nil => simpa using same
    | cons d t =>
      obtain ⟨e, rest, text, other⟩ := doubleChar_ne_quote d
      simp only [List.flatMap_nil, List.nil_append, List.flatMap_cons, text, List.cons_append,
        List.cons.injEq] at same
      exact (other same.1.symm).elim
  | cons c s ih => cases t with
    | nil =>
      obtain ⟨e, rest, text, other⟩ := doubleChar_ne_quote c
      simp only [List.flatMap_nil, List.nil_append, List.flatMap_cons, text, List.cons_append,
        List.cons.injEq] at same
      exact (other same.1).elim
    | cons d t =>
      simp only [List.flatMap_cons, List.append_assoc] at same
      obtain ⟨rfl, rest⟩ := doubleChar_append_inj same
      obtain ⟨rfl, after⟩ := ih rest
      exact ⟨rfl, after⟩

end PluginDescriptor.Yaml
