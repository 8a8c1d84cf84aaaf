import PluginDescriptor.Toml.Text

namespace PluginDescriptor.Toml

theorem codePoint?_fourDigits {c : Char} (control : c.toNat < 32 ∨ c.toNat = 127) :
    codePoint? (fourDigits c.toNat) = some c := by
  have each : ∀ n : Fin 128, codePoint? (fourDigits n.val) = some (Char.ofNat n.val) := by decide
  have read := each ⟨c.toNat, by omega⟩
  rwa [Char.ofNat_toNat] at read

/-- An escape is a letter that stands for the character, or its number. -/
theorem escapeOf?_cases {lines : Bool} {c : Char} {e : List Char}
    (shown : escapeOf? lines c = some e) :
    (∃ letter, simpleEscape? letter = some c ∧ e = ['\\', letter]) ∨
      (c.toNat < 32 ∨ c.toNat = 127) ∧ e = '\\' :: 'u' :: fourDigits c.toNat := by
  unfold escapeOf? at shown
  split at shown
  · next same => cases shown; exact Or.inl ⟨'b', by rw [same]; rfl, rfl⟩
  split at shown
  · next same => cases shown; exact Or.inl ⟨'t', by rw [same]; rfl, rfl⟩
  split at shown
  · next same =>
    split at shown
    · cases shown
    · cases shown; exact Or.inl ⟨'n', by rw [same]; rfl, rfl⟩
  split at shown
  · next same => cases shown; exact Or.inl ⟨'f', by rw [same]; rfl, rfl⟩
  split at shown
  · next same => cases shown; exact Or.inl ⟨'r', by rw [same]; rfl, rfl⟩
  split at shown
  · next same => cases shown; exact Or.inl ⟨'\\', by rw [same]; rfl, rfl⟩
  split at shown
  · next control => cases shown; exact Or.inr ⟨control, rfl⟩
  · cases shown

theorem escapeOf?_eq_cons {lines : Bool} {c : Char} {e : List Char}
    (shown : escapeOf? lines c = some e) : ∃ r, e = '\\' :: r := by
  rcases escapeOf?_cases shown with ⟨letter, _, rfl⟩ | ⟨_, rfl⟩ <;> exact ⟨_, rfl⟩

/-- What needs no escape is neither a backslash nor a control character other than a line end. -/
theorem escapeOf?_eq_none {lines : Bool} {c : Char} (bare : escapeOf? lines c = none) :
    c ≠ '\\' ∧ c ≠ '\r' ∧ (isPlain c ∨ lines ∧ c = '\n') := by
  unfold escapeOf? at bare
  grind [isPlain]

theorem basicBody_escape {lines : Bool} {c : Char} {e : List Char}
    (shown : escapeOf? lines c = some e) (rest : List Char) :
    basicBody (e ++ rest) = (basicBody rest).cons c := by
  rcases escapeOf?_cases shown with ⟨letter, known, rfl⟩ | ⟨control, rfl⟩
  · unfold simpleEscape? at known
    split at known <;> cases known <;> rfl
  · have read : basicBody ('\\' :: 'u' :: fourDigits c.toNat ++ rest) =
        (basicBody rest).cons? (codePoint? (fourDigits c.toNat)) := rfl
    rw [read, codePoint?_fourDigits control]
    rfl

theorem basicLines_escape {lines : Bool} {c : Char} {e : List Char}
    (shown : escapeOf? lines c = some e) (rest : List Char) :
    basicLines .text (e ++ rest) = (basicLines .text rest).cons c := by
  rcases escapeOf?_cases shown with ⟨letter, known, rfl⟩ | ⟨control, rfl⟩
  · unfold simpleEscape? at known
    split at known <;> cases known <;> rfl
  · have read : basicLines .text ('\\' :: 'u' :: fourDigits c.toNat ++ rest) =
        (basicLines .text rest).cons? (codePoint? (fourDigits c.toNat)) := rfl
    rw [read, codePoint?_fourDigits control]
    rfl

/-- What is written begins with a quote only if the text does and the quote needs no escape. -/
theorem head?_escaped_ne (cs rest : List Char) {lines : Bool} {run : Nat} {c : Char}
    (other : ¬ (lines ∧ run < 2) ∨ c ≠ '"') :
    (escaped lines run (c :: cs) ++ rest).head? ≠ some '"' := by
  unfold escaped
  split
  · next quote =>
    rw [if_neg (other.resolve_right (not_not_intro quote))]
    simp
  · next other =>
    split
    · next e shown =>
      obtain ⟨r, rfl⟩ := escapeOf?_eq_cons shown
      simp
    · simpa using other

theorem basicBody_escaped (run : Nat) (cs rest : List Char) :
    basicBody (escaped false run cs ++ '"' :: rest) = some (cs, rest) := by
  induction cs generalizing run with
  | nil => rfl
  | cons c cs ih =>
    unfold escaped
    split
    · next quote =>
      subst quote
      have read : basicBody ('\\' :: '"' :: escaped false 0 cs ++ '"' :: rest) =
          (basicBody (escaped false 0 cs ++ '"' :: rest)).cons '"' := rfl
      rw [if_neg (by simp), read, ih]
      rfl
    · next other =>
      split
      · next e shown =>
        rw [List.append_assoc, basicBody_escape shown, ih]
        rfl
      · next bare =>
        obtain ⟨notEscape, _, plain⟩ := escapeOf?_eq_none bare
        have plain : isPlain c := by simpa using plain
        simp [basicBody, plain, ih, Read.cons]

theorem literalBody_append {cs : List Char} (plain : ∀ c ∈ cs, isPlain c ∧ c ≠ '\'')
    (rest : List Char) : literalBody (cs ++ '\'' :: rest) = some (cs, rest) := by
  induction cs with
  | nil => rfl
  | cons c cs ih =>
    obtain ⟨plainHere, other⟩ := plain c (List.mem_cons_self ..)
    have read := ih fun d member => plain d (List.mem_cons_of_mem _ member)
    simp [literalBody, plainHere, read, Read.cons]

theorem closing_eq_nil {quote : Char} {rest : List Char} (other : rest.head? ≠ some quote) :
    closing quote rest = ([], rest) := by
  match rest with
  | [] => rfl
  | [c] => simpa [closing] using other
  | c :: d :: r =>
    rw [closing, if_neg]
    simpa using other

theorem closing_one {quote : Char} {rest : List Char} (other : rest.head? ≠ some quote) :
    closing quote (quote :: rest) = ([quote], rest) := by
  cases rest with
  | nil => simp [closing]
  | cons c r =>
    rw [closing, if_pos rfl, if_neg]
    simpa using other

theorem closing_two (quote : Char) (rest : List Char) :
    closing quote (quote :: quote :: rest) = ([quote, quote], rest) := by
  simp [closing]

/-- A reader for which three quotes in a row, and no fewer, close a string. -/
structure Closes (quote : Char) (reader : List Char → Read (List Char)) : Prop where
  closed : ∀ rest, reader (quote :: quote :: quote :: rest) = some (closing quote rest)
  inner : ∀ text, (∀ r, text ≠ quote :: quote :: r) →
    reader (quote :: text) = (reader text).cons quote

namespace Closes

variable {quote : Char} {reader : List Char → Read (List Char)}

theorem nil (closes : Closes quote reader) {rest : List Char} (other : rest.head? ≠ some quote) :
    reader (quote :: quote :: quote :: rest) = some ([], rest) := by
  rw [closes.closed, closing_eq_nil other]

/-- A quote belongs to a text if it is one of the last two, or if another character follows. -/
theorem cons (closes : Closes quote reader) {cs text rest : List Char}
    (other : rest.head? ≠ some quote) (read : reader text = some (cs, rest))
    (place : cs = [] ∧ text = quote :: quote :: quote :: rest ∨
      cs = [quote] ∧ text = quote :: quote :: quote :: quote :: rest ∨
      ∀ r, text ≠ quote :: quote :: r) :
    reader (quote :: text) = some (quote :: cs, rest) := by
  rcases place with ⟨rfl, rfl⟩ | ⟨rfl, rfl⟩ | apart
  · rw [closes.closed, closing_one other]
  · rw [closes.closed, closing_two]
  · rw [closes.inner text apart, read]
    rfl

end Closes

theorem literalLines_closes : Closes '\'' literalLines := by
  have plain : isPlain '\'' = true := by decide
  exact ⟨fun rest => by simp [literalLines], fun text apart => by simp [literalLines, plain, apart]⟩

theorem basicLines_closes : Closes '"' (basicLines .text) := by
  have plain : isPlain '"' = true := by decide
  exact ⟨fun rest => by simp [basicLines], fun text apart => by simp [basicLines, plain, apart]⟩

theorem le_longestRun (quote : Char) (run : Nat) (cs : List Char) :
    run ≤ longestRun quote run cs := by
  induction cs generalizing run with
  | nil => exact Nat.le_refl run
  | cons c cs ih =>
    unfold longestRun
    split
    · exact Nat.le_of_succ_le (ih (run + 1))
    · exact Nat.le_max_left ..

theorem longestRun_mono (quote : Char) {run more : Nat} (le : run ≤ more) (cs : List Char) :
    longestRun quote run cs ≤ longestRun quote more cs := by
  induction cs generalizing run more with
  | nil => exact le
  | cons c cs ih =>
    unfold longestRun
    split
    · exact ih (Nat.succ_le_succ le)
    · omega

/-- A text goes on with no longer row than it has as a whole. -/
theorem longestRun_tail (quote c : Char) (cs : List Char) :
    longestRun quote 0 cs ≤ longestRun quote 0 (c :: cs) := by
  rw [longestRun]
  split
  · exact longestRun_mono quote (Nat.zero_le 1) cs
  · exact Nat.le_max_right ..

theorem literalLines_append {cs rest : List Char} (shown : ∀ c ∈ cs, isPlain c ∨ c = '\n')
    (short : longestRun '\'' 0 cs ≤ 2) (other : rest.head? ≠ some '\'') :
    literalLines (cs ++ '\'' :: '\'' :: '\'' :: rest) = some (cs, rest) := by
  induction cs with
  | nil => exact literalLines_closes.nil other
  | cons c cs ih =>
    have read := ih (fun d member => shown d (List.mem_cons_of_mem _ member))
      (Nat.le_trans (longestRun_tail '\'' c cs) short)
    by_cases quote : c = '\''
    · subst quote
      rw [List.cons_append]
      refine literalLines_closes.cons other read ?_
      rcases cs with _ | ⟨d, _ | ⟨f, cs⟩⟩
      · exact Or.inl ⟨rfl, rfl⟩
      · by_cases again : d = '\''
        · subst again
          exact Or.inr (Or.inl ⟨rfl, rfl⟩)
        · exact Or.inr (Or.inr (by simp [again]))
      · refine Or.inr (Or.inr fun r same => ?_)
        have long := le_longestRun '\'' (0 + 1 + 1 + 1) cs
        obtain ⟨first, same⟩ := List.cons.inj same
        obtain ⟨second, _⟩ := List.cons.inj same
        simp only [longestRun, first, second, if_true] at short
        omega
    · rcases shown c (List.mem_cons_self ..) with plain | rfl
      · have returns : c ≠ '\r' := by rintro rfl; exact absurd plain (by decide)
        have inner : c ≠ '\n' := by rintro rfl; exact absurd plain (by decide)
        simp [literalLines, quote, returns, plain, read, Read.cons]
      · simp [literalLines, read, Read.cons]

/-- After a quote that is written as it is, at most one more is, unless something else comes between. -/
theorem escaped_after_quote (run : Nat) (cs rest : List Char) :
    cs = [] ∨ cs = ['"'] ∧ escaped true (run + 1) cs = ['"'] ∨
      ∀ r, escaped true (run + 1) cs ++ rest ≠ '"' :: '"' :: r := by
  rcases cs with _ | ⟨c, cs⟩
  · exact Or.inl rfl
  by_cases first : c = '"' ∧ run + 1 < 2
  · obtain ⟨rfl, few⟩ := first
    rcases cs with _ | ⟨d, cs⟩
    · exact Or.inr (Or.inl ⟨rfl, by simp [escaped, few]⟩)
    · have second : (escaped true (run + 1 + 1) (d :: cs) ++ rest).head? ≠ some '"' :=
        head?_escaped_ne cs rest (Or.inl (by omega))
      refine Or.inr (Or.inr fun r same => ?_)
      rw [escaped, if_pos rfl, if_pos ⟨rfl, few⟩, List.cons_append] at same
      rw [(List.cons.inj same).2] at second
      exact second rfl
  · have other : (escaped true (run + 1) (c :: cs) ++ rest).head? ≠ some '"' :=
      head?_escaped_ne cs rest (by grind)
    refine Or.inr (Or.inr fun r same => ?_)
    rw [same] at other
    exact other rfl

theorem basicLines_escaped (run : Nat) {cs rest : List Char} (other : rest.head? ≠ some '"') :
    basicLines .text (escaped true run cs ++ '"' :: '"' :: '"' :: rest) = some (cs, rest) := by
  induction cs generalizing run with
  | nil => exact basicLines_closes.nil other
  | cons c cs ih =>
    unfold escaped
    split
    · next quote =>
      subst quote
      split
      · next few =>
        rw [List.cons_append]
        refine basicLines_closes.cons other (ih (run + 1)) ?_
        rcases escaped_after_quote run cs ('"' :: '"' :: '"' :: rest) with rfl | ⟨rfl, shown⟩ | apart
        · exact Or.inl ⟨rfl, rfl⟩
        · exact Or.inr (Or.inl ⟨rfl, by rw [shown]; rfl⟩)
        · exact Or.inr (Or.inr apart)
      · have read : basicLines .text ('\\' :: '"' :: escaped true 0 cs ++ '"' :: '"' :: '"' :: rest) =
            (basicLines .text (escaped true 0 cs ++ '"' :: '"' :: '"' :: rest)).cons '"' := rfl
        rw [read, ih]
        rfl
    · next inner =>
      split
      · next e shown =>
        rw [List.append_assoc, basicLines_escape shown, ih]
        rfl
      · next bare =>
        obtain ⟨notEscape, returns, plain | ⟨_, rfl⟩⟩ := escapeOf?_eq_none bare
        · have other : c ≠ '\n' := by rintro rfl; exact absurd plain (by decide)
          simp [basicLines, inner, returns, plain, ih, Read.cons]
        · simp [basicLines, ih, Read.cons]

variable {cs rest : List Char}

theorem readText_basicString (cs : List Char) (other : rest.head? ≠ some '"') :
    readText (basicString cs ++ rest) = some (cs, rest) := by
  have text : basicString cs ++ rest = '"' :: (escaped false 0 cs ++ '"' :: rest) := by
    simp [basicString]
  -- The second and the third character are quotes only if another string could begin here.
  have apart (r : List Char) : escaped false 0 cs ++ '"' :: rest ≠ '"' :: '"' :: r := by
    intro same
    rcases cs with _ | ⟨c, cs⟩
    · rw [(List.cons.inj same).2] at other
      exact other rfl
    · have head : (escaped false 0 (c :: cs) ++ '"' :: rest).head? ≠ some '"' :=
        head?_escaped_ne cs _ (Or.inl (by simp))
      rw [same] at head
      exact head rfl
  rw [text]
  simp [readText, readShort, apart, basicBody_escaped]

theorem readText_literalString (filled : cs ≠ []) (plain : ∀ c ∈ cs, isPlain c ∧ c ≠ '\'')
    (rest : List Char) : readText (literalString cs ++ rest) = some (cs, rest) := by
  have text : literalString cs ++ rest = '\'' :: (cs ++ '\'' :: rest) := by simp [literalString]
  have apart (r : List Char) : cs ++ '\'' :: rest ≠ '\'' :: '\'' :: r := by
    obtain ⟨c, cs, rfl⟩ := List.exists_cons_of_ne_nil filled
    have other := (plain c (List.mem_cons_self ..)).2
    simp [other]
  rw [text]
  simp [readText, readShort, apart, literalBody_append plain]

/-- The line end that is put in front of a text with several lines is dropped, and no other is. -/
theorem dropLineEnd_first {text : List Char}
    (own : ∀ c, text.head? = some c → c ≠ '\r' ∧ (c = '\n' → '\n' ∈ cs)) :
    dropLineEnd (firstLineEnd cs ++ text) = text := by
  unfold firstLineEnd
  split
  · rfl
  · next whole =>
    have whole : '\n' ∉ cs := by simpa using whole
    rw [List.nil_append]
    unfold dropLineEnd
    split
    · exact (whole ((own _ rfl).2 rfl)).elim
    · exact ((own _ rfl).1 rfl).elim
    · rfl

theorem head?_escaped {run : Nat} {c : Char}
    (first : (escaped true run cs ++ '"' :: rest).head? = some c) :
    c ≠ '\r' ∧ (c = '\n' → '\n' ∈ cs) := by
  rcases cs with _ | ⟨d, cs⟩
  · cases first
    decide
  unfold escaped at first
  split at first
  · split at first <;> cases first <;> simp
  · split at first
    · next e shown =>
      obtain ⟨r, rfl⟩ := escapeOf?_eq_cons shown
      cases first
      simp
    · next bare =>
      cases first
      refine ⟨(escapeOf?_eq_none bare).2.1, ?_⟩
      rintro rfl
      exact List.mem_cons_self ..

theorem readText_basicLinesString (cs : List Char) (other : rest.head? ≠ some '"') :
    readText (basicLinesString cs ++ rest) = some (cs, rest) := by
  have text : basicLinesString cs ++ rest =
      '"' :: '"' :: '"' :: (firstLineEnd cs ++ (escaped true 0 cs ++ '"' :: '"' :: '"' :: rest)) := by
    simp [basicLinesString]
  rw [text, readText, dropLineEnd_first fun c => head?_escaped, basicLines_escaped 0 other]

theorem readText_literalLinesString (shown : ∀ c ∈ cs, isPlain c ∨ c = '\n')
    (short : longestRun '\'' 0 cs ≤ 2) (other : rest.head? ≠ some '\'') :
    readText (literalLinesString cs ++ rest) = some (cs, rest) := by
  have text : literalLinesString cs ++ rest =
      '\'' :: '\'' :: '\'' :: (firstLineEnd cs ++ (cs ++ '\'' :: '\'' :: '\'' :: rest)) := by
    simp [literalLinesString]
  have own (c : Char) (first : (cs ++ '\'' :: '\'' :: '\'' :: rest).head? = some c) :
      c ≠ '\r' ∧ (c = '\n' → '\n' ∈ cs) := by
    rcases cs with _ | ⟨d, cs⟩
    · cases first
      decide
    · cases first
      refine ⟨?_, ?_⟩
      · rintro rfl
        exact absurd (shown _ (List.mem_cons_self ..)) (by decide)
      · rintro rfl
        exact List.mem_cons_self ..
  rw [text, readText, dropLineEnd_first own, literalLines_append shown short other]

theorem longestRun_pos {quote : Char} (run : Nat) (member : quote ∈ cs) :
    0 < longestRun quote run cs := by
  induction cs generalizing run with
  | nil => cases member
  | cons c cs ih =>
    unfold longestRun
    split
    · exact Nat.lt_of_lt_of_le (Nat.succ_pos run) (le_longestRun quote (run + 1) cs)
    · next other =>
      have later := ih 0 ((List.mem_cons.1 member).resolve_left (Ne.symm other))
      omega

theorem exists_write (cs : List Char) : ∃ q r, write cs = q :: r ∧ (q = '"' ∨ q = '\'') := by
  simp only [write]
  repeat' split
  all_goals exact ⟨_, _, rfl, by decide⟩

/-- A string is read as the text for which it was written, if no quote follows it. -/
theorem readText_write (cs : List Char) (double : rest.head? ≠ some '"')
    (single : rest.head? ≠ some '\'') : readText (write cs ++ rest) = some (cs, rest) := by
  have plain (control : cs.any needsEscape = false) : ∀ c ∈ cs, isPlain c ∨ c = '\n' := by
    intro c member
    have shown := List.any_eq_false.1 control c member
    grind [needsEscape]
  simp only [write]
  split
  · exact readText_basicString cs double
  split
  · next kind first =>
    obtain ⟨control, none, line⟩ := first
    have line : '\n' ∉ cs := by simpa using line
    refine readText_literalString ?_ (fun c member => ⟨?_, ?_⟩) rest
    · -- The empty text is written in the other quotes.
      rintro rfl
      exact kind (by decide)
    · refine (plain (by simpa using control) c member).resolve_right ?_
      rintro rfl
      exact line member
    · rintro rfl
      have some_ := longestRun_pos 0 member
      omega
  split
  · exact readText_basicLinesString cs double
  split
  · next kind => exact readText_literalLinesString (plain (by simpa using kind.1)) kind.2 single
  split
  · exact readText_basicLinesString cs double
  · exact readText_basicString cs double

end PluginDescriptor.Toml
