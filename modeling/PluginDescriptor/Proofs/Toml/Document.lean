import PluginDescriptor.Proofs.OrderedMap
import PluginDescriptor.Proofs.Toml.Text
import PluginDescriptor.Toml.Document

namespace PluginDescriptor.Toml

/-- A key that may stand without quotes. -/
def IsBareKey (key : String) : Prop := key ≠ "" ∧ ∀ c ∈ key.toList, isBareKeyChar c

instance (key : String) : Decidable (IsBareKey key) :=
  decidable_of_iff (key ≠ "" ∧ key.toList.all isBareKeyChar) (and_congr_right' List.all_eq_true)

theorem IsBareKey.exists_cons {key : String} (bare : IsBareKey key) :
    ∃ c r, key.toList = c :: r ∧ isBareKeyChar c := by
  have filled : key.toList ≠ [] := fun none => bare.1 (String.toList_eq_nil_iff.1 none)
  obtain ⟨c, r, shape⟩ := List.exists_cons_of_ne_nil filled
  exact ⟨c, r, shape, bare.2 c (by simp [shape])⟩

theorem ne_of_isBareKeyChar {c d : Char} (bare : isBareKeyChar c) (other : isBareKeyChar d = false) :
    c ≠ d := by
  rintro rfl
  rw [other] at bare
  cases bare

theorem isBlank_of_isBareKeyChar {c : Char} (bare : isBareKeyChar c) : isBlank c = false := by
  have space := ne_of_isBareKeyChar (d := ' ') bare (by decide)
  have tab := ne_of_isBareKeyChar (d := '\t') bare (by decide)
  simp [isBlank, space, tab]

/-- A line of a document. -/
def line (key value : String) : List Char :=
  key.toList ++ [' ', '=', ' '] ++ write value.toList ++ ['\n']

section

variable {key : String} (bare : IsBareKey key)

include bare

theorem skipTrivia_bareKey (rest : List Char) :
    skipTrivia false (key.toList ++ rest) = some (key.toList ++ rest) := by
  obtain ⟨c, r, shape, first⟩ := bare.exists_cons
  have lineEnd := ne_of_isBareKeyChar (d := '\n') first (by decide)
  have returns := ne_of_isBareKeyChar (d := '\r') first (by decide)
  have comment := ne_of_isBareKeyChar (d := '#') first (by decide)
  rw [shape, List.cons_append]
  simp [skipTrivia, isBlank_of_isBareKeyChar first, returns, comment]

theorem readKey_bareKey (rest : List Char) :
    readKey (key.toList ++ ' ' :: rest) = some (key, ' ' :: rest) := by
  obtain ⟨c, r, shape, first⟩ := bare.exists_cons
  have double := ne_of_isBareKeyChar (d := '"') first (by decide)
  have single := ne_of_isBareKeyChar (d := '\'') first (by decide)
  have taken : (key.toList ++ ' ' :: rest).takeWhile isBareKeyChar = key.toList := by
    rw [List.takeWhile_append_of_pos bare.2, List.takeWhile_cons_of_neg (by decide), List.append_nil]
  have left : (key.toList ++ ' ' :: rest).dropWhile isBareKeyChar = ' ' :: rest := by
    rw [List.dropWhile_append_of_pos bare.2, List.dropWhile_cons_of_neg (by decide)]
  unfold readKey
  split
  · next none => simp [shape] at none
  · next d s text =>
    have same : d = c := by
      rw [shape] at text
      exact (List.cons.inj text).1.symm
    rw [taken, left, same, if_neg (by simp [double, single]), if_pos first, String.ofList_toList]

theorem readKeys_bareKey {most : Nat} (positive : 0 < most) (rest : List Char) :
    readKeys most (key.toList ++ ' ' :: '=' :: rest) = some (([], key), '=' :: rest) := by
  obtain ⟨most, rfl⟩ := Nat.exists_eq_succ_of_ne_zero (Nat.ne_of_gt positive)
  obtain ⟨c, r, shape, first⟩ := bare.exists_cons
  have shown : skipBlanks (key.toList ++ ' ' :: '=' :: rest) = key.toList ++ ' ' :: '=' :: rest := by
    rw [shape, List.cons_append, skipBlanks, List.dropWhile_cons_of_neg]
    simp [isBlank_of_isBareKeyChar first]
  have next : skipBlanks (' ' :: '=' :: rest) = '=' :: rest := rfl
  simp only [readKeys, shown, readKey_bareKey bare, next]
  rfl

omit bare in
theorem readValue_write (value : String) (rest : List Char) :
    readValue maxDepth (skipBlanks (' ' :: (write value.toList ++ '\n' :: rest))) =
      some (.text value, '\n' :: rest) := by
  obtain ⟨q, r, shape, quote⟩ := exists_write value.toList
  have read : readText (write value.toList ++ '\n' :: rest) = some (value.toList, '\n' :: rest) :=
    readText_write value.toList (by simp) (by simp)
  have shown : skipBlanks (' ' :: (write value.toList ++ '\n' :: rest)) =
      write value.toList ++ '\n' :: rest := by
    rw [shape, List.cons_append, skipBlanks, List.dropWhile_cons_of_pos (by decide),
      List.dropWhile_cons_of_neg]
    rcases quote with rfl | rfl <;> decide
  rw [shape, List.cons_append] at read
  rw [shown, shape, List.cons_append]
  simp only [readValue.eq_def, if_pos quote, read, String.ofList_toList]

/-- A line is read as an entry. -/
theorem readLines_line {t : Table} (new : key ∉ Entries.keys t) (fuel : Nat) (value : String)
    (rest : List Char) :
    readLines (fuel + 1) [] t (line key value ++ rest) =
      readLines fuel [] (t ++ [(key, .text value)]) rest := by
  have text : line key value ++ rest =
      key.toList ++ ' ' :: '=' :: ' ' :: (write value.toList ++ '\n' :: rest) := by simp [line]
  obtain ⟨c, r, shape, first⟩ := bare.exists_cons
  have header := ne_of_isBareKeyChar (d := '[') first (by decide)
  have keys := readKeys_bareKey bare (by decide : 0 < maxKeys) (' ' :: (write value.toList ++ '\n' :: rest))
  have ended : endLine ('\n' :: rest) = some rest := rfl
  have added : Table.modifyAt (Table.define key (.text value) []) [] t =
      some (t ++ [(key, .text value)]) := by
    simp only [Table.modifyAt, Table.define, Entries.find?_eq_none_iff.2 new,
      Entries.put_of_not_mem new]
  rw [text, readLines, skipTrivia_bareKey bare]
  split
  · next none => cases none
  · next none =>
    rw [shape] at none
    cases none
  · next opened =>
    rw [shape] at opened
    cases opened
    exact (header rfl).elim
  · next shown =>
    cases shown
    simp only [keys, readValue_write, ended, added]

end

/-- The text of a document with these entries. -/
def lines (l : List (String × String)) : List Char := l.flatMap fun (key, value) => line key value

theorem length_le_lines (l : List (String × String)) : l.length ≤ (lines l).length := by
  induction l with
  | nil => exact Nat.le_refl 0
  | cons e l ih =>
    obtain ⟨key, value⟩ := e
    simp only [lines, List.flatMap_cons, List.length_append, List.length_cons] at ih ⊢
    have filled : 0 < (line key value).length := by
      simp only [line, List.length_append, List.length_singleton]
      omega
    omega

/-- The entries of a document come after those that are there. -/
theorem readLines_lines {l : List (String × String)} {t : Table} (bare : ∀ e ∈ l, IsBareKey e.1)
    (apart : (Entries.keys t ++ Entries.keys l).Nodup) {fuel : Nat} (enough : l.length < fuel) :
    readLines fuel [] t (lines l) = some (t ++ l.map fun (key, value) => (key, .text value)) := by
  induction l generalizing t fuel with
  | nil =>
    obtain ⟨fuel, rfl⟩ := Nat.exists_eq_succ_of_ne_zero (Nat.ne_of_gt enough)
    simp [lines, readLines, skipTrivia]
  | cons e l ih =>
    obtain ⟨key, value⟩ := e
    obtain ⟨fuel, rfl⟩ := Nat.exists_eq_succ_of_ne_zero (Nat.ne_zero_of_lt enough)
    have new : key ∉ Entries.keys t := by
      intro known
      exact (List.nodup_append.1 apart).2.2 key known key (List.mem_cons_self ..) rfl
    have apart' : (Entries.keys (t ++ [(key, Node.text value)]) ++ Entries.keys l).Nodup := by
      simpa [Entries.keys] using apart
    have step := readLines_line (bare (key, value) (List.mem_cons_self ..)) new fuel value (lines l)
    have rest := ih (fun e member => bare e (List.mem_cons_of_mem _ member)) apart'
      (Nat.lt_of_succ_lt_succ enough)
    rw [List.append_assoc] at rest
    exact step.trans rest

/-- A document with a line for each entry describes the table of the entries. -/
theorem parse_lines {l : List (String × String)} (bare : ∀ e ∈ l, IsBareKey e.1)
    (apart : (Entries.keys l).Nodup) :
    parse (String.ofList (lines l)) = some (l.map fun (key, value) => (key, .text value)) := by
  have unmarked (r : List Char) : lines l ≠ '\uFEFF' :: r := by
    intro marked
    cases l with
    | nil => cases marked
    | cons e l =>
      obtain ⟨c, s, shape, first⟩ := (bare e (List.mem_cons_self ..)).exists_cons
      simp only [lines, List.flatMap_cons, line, shape] at marked
      exact ne_of_isBareKeyChar first (by decide) (List.cons.inj marked).1
  have read := readLines_lines (t := []) bare (by simpa using apart)
    (Nat.lt_succ_of_le (length_le_lines l))
  simp only [parse, String.toList_ofList]
  exact read

end PluginDescriptor.Toml
