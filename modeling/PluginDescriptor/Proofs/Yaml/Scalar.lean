import PluginDescriptor.Proofs.Yaml.Escape

namespace PluginDescriptor.Yaml

/-- What comes right after a scalar on one line: the end of the line, or the colon of a key. -/
def EndsScalar (r : List Char) : Prop :=
  (∃ s, r = '\n' :: s) ∨ ∃ c s, r = ':' :: c :: s ∧ isSeparator c = true

theorem hasInnerIndicator_append_colon (separated : Bool) (s : List Char) {r : List Char}
    (after : startsSeparated r = true) : hasInnerIndicator separated (s ++ ':' :: r) = true := by
  induction s generalizing separated with
  | nil => simp [hasInnerIndicator, after]
  | cons c s ih => simp [hasInnerIndicator, ih]

theorem fitsPlain_cons {c : Char} {r : List Char} (fits : fitsPlain (c :: r) = true) :
    c ∉ leadingIndicators ∧ c ≠ ' ' ∧
      (c = '-' ∨ c = '?' ∨ c = ':' → startsSeparated r = false) := by
  simp only [fitsPlain, Bool.and_eq_true, Bool.not_eq_true', isSpace] at fits
  obtain ⟨⟨⟨⟨⟨⟨lead, _⟩, mark⟩, _⟩, space⟩, _⟩, _⟩ := fits
  refine ⟨by simpa using lead, by simpa using space, fun special => ?_⟩
  rcases special with rfl | rfl | rfl <;> simpa using mark

theorem fitsPlain_inner {s : List Char} (fits : fitsPlain s = true) :
    hasInnerIndicator true s = false ∧ ∀ c ∈ s, isBreak c = false := by
  cases s with
  | nil => cases fits
  | cons c r =>
    simp only [fitsPlain, Bool.and_eq_true, Bool.not_eq_true'] at fits
    obtain ⟨⟨⟨⟨_, inner⟩, _⟩, _⟩, unbroken⟩ := fits
    refine ⟨inner, fun d member => ?_⟩
    have each := List.all_eq_true.1 unbroken d member
    simp only [Bool.and_eq_true, Bool.not_eq_true'] at each
    exact each.2

/-- A plain text does not run on over the end of a scalar. -/
theorem plain_stop {s u r : List Char} (fits : fitsPlain (s ++ u) = true)
    (ends : EndsScalar (u ++ r)) : u = [] := by
  obtain ⟨inner, unbroken⟩ := fitsPlain_inner fits
  cases u with
  | nil => rfl
  | cons c u =>
    rw [List.cons_append] at ends
    rcases ends with ⟨_, line⟩ | ⟨d, _, colon, separated⟩
    · cases line
      have bare := unbroken '\n' (by simp)
      cases bare
    · obtain ⟨rfl, rest⟩ := List.cons.inj colon
      have after : startsSeparated u = true := by
        cases u with
        | nil => rfl
        | cons e u =>
          cases rest
          exact separated
      rw [hasInnerIndicator_append_colon true s after] at inner
      cases inner

theorem plain_cancel {s t r r' : List Char} (fitsS : fitsPlain s = true)
    (fitsT : fitsPlain t = true) (ends : EndsScalar r) (ends' : EndsScalar r')
    (same : s ++ r = t ++ r') : s = t ∧ r = r' := by
  rcases List.append_eq_append_iff.1 same with ⟨u, rfl, rfl⟩ | ⟨u, rfl, rfl⟩
  · have stop := plain_stop fitsT ends
    simp [stop]
  · have stop := plain_stop fitsS ends'
    simp [stop]

/-- The indentation of a line that begins. -/
def margin (n : Nat) (broken : Bool) : List Char := if broken then spaces n else []

/-- A character between single quotes. -/
def quotes (c : Char) : List Char := if c = '\'' then ['\'', '\''] else [c]

theorem singleBody_break {n : Nat} {broken : Bool} {c : Char} (ends : isBreak c = true)
    (r : List Char) : singleBody n broken (c :: r) = c :: singleBody n true r := by
  rw [singleBody, if_pos ends]

theorem singleBody_char {n : Nat} {broken : Bool} {c : Char} (inside : isBreak c = false)
    (r : List Char) :
    singleBody n broken (c :: r) = margin n broken ++ (quotes c ++ singleBody n false r) := by
  rw [singleBody, inside, if_neg Bool.false_ne_true, List.append_assoc]
  rfl

/-- What begins a line with its indentation does not begin with a break. -/
theorem margin_append_ne_break {n : Nat} {broken : Bool} {c d : Char} {r s : List Char}
    (inside : isBreak c = false) (ends : isBreak d = true) :
    margin n broken ++ c :: r ≠ d :: s := by
  intro same
  unfold margin at same
  have line : c = d ∨ ' ' = d := by
    cases broken with
    | false => exact Or.inl (List.cons.inj same).1
    | true => cases n with
      | zero => exact Or.inl (List.cons.inj same).1
      | succ n => exact Or.inr (List.cons.inj same).1
  rcases line with rfl | rfl
  · rw [inside] at ends
    cases ends
  · cases ends

theorem exists_quotes (c : Char) : ∃ r, quotes c = c :: r := by
  unfold quotes
  split
  · next quote => exact ⟨_, by rw [quote]⟩
  · exact ⟨[], rfl⟩

theorem singleBody_running (n : Nat) (broken : Bool) {c : Char} (s r : List Char)
    (inside : isBreak c = false) :
    ∃ u, singleBody n broken (c :: s) ++ r = margin n broken ++ c :: u := by
  obtain ⟨u, text⟩ := exists_quotes c
  rw [singleBody_char inside, text]
  exact ⟨u ++ (singleBody n false s ++ r), by simp⟩

/-- A quote between single quotes cannot be taken for the closing one. -/
theorem close_ne_quotes {c : Char} {r s : List Char} (alone : r.head? ≠ some '\'') :
    '\'' :: r ≠ quotes c ++ s := by
  intro same
  unfold quotes at same
  split at same
  · cases same
    exact alone rfl
  · next other => exact other (List.cons.inj same).1.symm

theorem quotes_append_inj {c d : Char} {r s : List Char} (same : quotes c ++ r = quotes d ++ s) :
    c = d ∧ r = s := by
  obtain ⟨u, textC⟩ := exists_quotes c
  obtain ⟨v, textD⟩ := exists_quotes d
  have first : c = d := by
    rw [textC, textD] at same
    exact (List.cons.inj same).1
  subst first
  exact ⟨rfl, List.append_cancel_left same⟩

/-- The end of a text in single quotes is not taken for more of it. -/
theorem close_ne_singleBody {n : Nat} {broken : Bool} {c : Char} {s r r' : List Char}
    (alone : r.head? ≠ some '\'') :
    margin n broken ++ '\'' :: r ≠ singleBody n broken (c :: s) ++ r' := by
  intro same
  cases ends : isBreak c with
  | true =>
    rw [singleBody_break ends] at same
    exact margin_append_ne_break (by decide) ends same
  | false =>
    rw [singleBody_char ends, List.append_assoc, List.append_assoc] at same
    exact close_ne_quotes alone (List.append_cancel_left same)

/-- A text in single quotes ends at the first quote that is not doubled. -/
theorem singleBody_cancel {n : Nat} {broken : Bool} {s t r r' : List Char}
    (alone : r.head? ≠ some '\'') (alone' : r'.head? ≠ some '\'')
    (same : singleBody n broken s ++ '\'' :: r = singleBody n broken t ++ '\'' :: r') :
    s = t ∧ r = r' := by
  induction s generalizing t broken with
  | nil => cases t with
    | nil =>
      have rest := List.append_cancel_left same
      exact ⟨rfl, (List.cons.inj rest).2⟩
    | cons d t => exact (close_ne_singleBody alone same).elim
  | cons c s ih => cases t with
    | nil => exact (close_ne_singleBody alone' same.symm).elim
    | cons d t => cases endsC : isBreak c with
      | true => cases endsD : isBreak d with
        | true =>
          rw [singleBody_break endsC, singleBody_break endsD] at same
          obtain ⟨rfl, rest⟩ := List.cons.inj same
          obtain ⟨rfl, after⟩ := ih rest
          exact ⟨rfl, after⟩
        | false =>
          obtain ⟨u, line⟩ := singleBody_running n broken t ('\'' :: r') endsD
          rw [line, singleBody_break endsC] at same
          exact (margin_append_ne_break endsD endsC same.symm).elim
      | false => cases endsD : isBreak d with
        | true =>
          obtain ⟨u, line⟩ := singleBody_running n broken s ('\'' :: r) endsC
          rw [line, singleBody_break endsD] at same
          exact (margin_append_ne_break endsC endsD same).elim
        | false =>
          rw [singleBody_char endsC, singleBody_char endsD] at same
          simp only [List.append_assoc] at same
          obtain ⟨rfl, rest⟩ := quotes_append_inj (List.append_cancel_left same)
          obtain ⟨rfl, after⟩ := ih rest
          exact ⟨rfl, after⟩

theorem literalBody_break {n : Nat} {broken : Bool} {c : Char} (ends : isBreak c = true)
    (r : List Char) : literalBody n broken (c :: r) = c :: literalBody n true r := by
  rw [literalBody, if_pos ends]

theorem literalBody_char {n : Nat} {broken : Bool} {c : Char} (inside : isBreak c = false)
    (r : List Char) :
    literalBody n broken (c :: r) = margin n broken ++ c :: literalBody n false r := by
  rw [literalBody, inside, if_neg Bool.false_ne_true]
  rfl

/-- What comes after the lines of a block: nothing, or a line that is indented less. -/
def Below (n : Nat) (r : List Char) : Prop :=
  r = [] ∨ ∃ k c s, r = spaces k ++ c :: s ∧ k < n ∧ c ≠ ' ' ∧ isBreak c = false

/-- Whether the lines of a text are closed, when the text comes after a break or not. -/
def isClosed : (broken : Bool) → List Char → Bool
  | broken, [] => broken
  | _, c :: r => isClosed (isBreak c) r

theorem spaces_append_inj {j k : Nat} {c d : Char} {r s : List Char} (notC : c ≠ ' ')
    (notD : d ≠ ' ') (same : spaces j ++ c :: r = spaces k ++ d :: s) :
    j = k ∧ c = d ∧ r = s := by
  induction j generalizing k with
  | zero => cases k with
    | zero => exact ⟨rfl, List.cons.inj same⟩
    | succ k => exact (notC (List.cons.inj same).1).elim
  | succ j ih => cases k with
    | zero => exact (notD (List.cons.inj same).1.symm).elim
    | succ k =>
      obtain ⟨rfl, rest⟩ := ih (List.cons.inj same).2
      exact ⟨rfl, rest⟩

/-- A line does not begin within the indentation of another. -/
theorem spaces_append_ne {k n : Nat} {c : Char} {r s : List Char} (less : k < n) (other : c ≠ ' ') :
    spaces n ++ r ≠ spaces k ++ c :: s := by
  intro same
  obtain ⟨m, rfl⟩ := Nat.exists_eq_add_of_lt less
  rw [Nat.add_assoc, spaces, ← List.replicate_append_replicate, List.append_assoc] at same
  have next := List.append_cancel_left same
  exact other (List.cons.inj next).1.symm

/-- A line of a block is not taken for what comes after the block. -/
theorem literalBody_cons_ne_below {n : Nat} {c : Char} {t r r' : List Char} (below : Below n r) :
    literalBody n true (c :: t) ++ r' ≠ r := by
  intro same
  cases ends : isBreak c with
  | true =>
    rw [literalBody_break ends] at same
    rcases below with rfl | ⟨k, d, s, rfl, _, _, inside⟩
    · cases same
    · have line : margin k true ++ d :: s = _ := same.symm
      exact margin_append_ne_break inside ends line
  | false =>
    rw [literalBody_char ends, List.append_assoc] at same
    rcases below with rfl | ⟨k, d, s, rfl, less, other, _⟩
    · simp at same
    · exact spaces_append_ne less other same

/-- The lines of a block end before the first line that is indented less. -/
theorem literalBody_cancel {n : Nat} {broken : Bool} {s t r r' : List Char}
    (closed : isClosed broken s = true) (closed' : isClosed broken t = true) (below : Below n r)
    (below' : Below n r') (same : literalBody n broken s ++ r = literalBody n broken t ++ r') :
    s = t ∧ r = r' := by
  induction s generalizing t broken with
  | nil => cases t with
    | nil => exact ⟨rfl, same⟩
    | cons d t =>
      cases (closed : broken = true)
      exact (literalBody_cons_ne_below below same.symm).elim
  | cons c s ih => cases t with
    | nil =>
      cases (closed' : broken = true)
      exact (literalBody_cons_ne_below below' same).elim
    | cons d t =>
      rw [isClosed] at closed closed'
      cases endsC : isBreak c with
      | true => cases endsD : isBreak d with
        | true =>
          rw [endsC] at closed
          rw [endsD] at closed'
          rw [literalBody_break endsC, literalBody_break endsD] at same
          obtain ⟨rfl, rest⟩ := List.cons.inj same
          obtain ⟨rfl, after⟩ := ih closed closed' rest
          exact ⟨rfl, after⟩
        | false =>
          rw [literalBody_break endsC, literalBody_char endsD, List.append_assoc] at same
          exact (margin_append_ne_break endsD endsC same.symm).elim
      | false => cases endsD : isBreak d with
        | true =>
          rw [literalBody_char endsC, literalBody_break endsD, List.append_assoc] at same
          exact (margin_append_ne_break endsC endsD same).elim
        | false =>
          rw [endsC] at closed
          rw [endsD] at closed'
          rw [literalBody_char endsC, literalBody_char endsD, List.append_assoc,
            List.append_assoc] at same
          obtain ⟨rfl, rest⟩ := List.cons.inj (List.append_cancel_left same)
          obtain ⟨rfl, after⟩ := ih closed closed' rest
          exact ⟨rfl, after⟩

/-- A text with a break at its end. -/
def closeText (s : List Char) : List Char := if s.getLast?.any isBreak then s else s ++ ['\n']

theorem literalBody_concat (n : Nat) (broken : Bool) (s : List Char) :
    literalBody n broken (s ++ ['\n']) = literalBody n broken s ++ ['\n'] := by
  induction s generalizing broken with
  | nil => rfl
  | cons c s ih => cases ends : isBreak c with
    | true => rw [List.cons_append, literalBody_break ends, literalBody_break ends, ih]; rfl
    | false =>
      rw [List.cons_append, literalBody_char ends, literalBody_char ends, ih, List.append_assoc]
      rfl

theorem isClosed_concat (broken : Bool) (s : List Char) (c : Char) :
    isClosed broken (s ++ [c]) = isBreak c := by
  induction s generalizing broken with
  | nil => rfl
  | cons d s ih => exact ih _

theorem isClosed_closeText (s : List Char) : isClosed true (closeText s) = true := by
  unfold closeText
  split
  · next ends =>
    rcases List.eq_nil_or_concat s with rfl | ⟨t, c, rfl⟩
    · rfl
    · simpa [isClosed_concat] using ends
  · exact isClosed_concat true s '\n'

/-- The first line of a literal block has a minus sign when the text has no break at its end. -/
theorem literalHeader_cases {s : List Char} (filled : s ≠ []) :
    ∃ indentation chomping, literalHeader s = '|' :: indentation ++ chomping ∧
      (indentation = [] ∨ indentation = ['2']) ∧
      (chomping = ['-'] ∨ chomping = [] ∨ chomping = ['+']) ∧
      (chomping = ['-'] ↔ s.getLast?.any isBreak = false) := by
  refine ⟨_, _, rfl, ?_, ?_⟩
  · split
    · split <;> simp
    · simp
  · have last : s.getLast? = s.reverse.head? := List.getLast?_eq_head?_reverse
    have reversed : s.reverse ≠ [] := by simpa using filled
    split
    · contradiction
    · next c single =>
      rw [last, single]
      cases ends : isBreak c <;> simp [ends]
    · next c d r longer =>
      rw [last, longer]
      cases ends : isBreak c <;> cases before : isBreak d <;> simp [ends]

theorem style_literal {s : List Char} (literal : style s = .literal) : '\n' ∈ s := by
  unfold style at literal
  split at literal
  · next broken => exact List.contains_iff_mem.1 broken
  · split at literal
    · cases literal
    · split at literal <;> cases literal

theorem style_unbroken {s : List Char} (unbroken : s.any isBreak = false) :
    style s ≠ .literal := by
  intro literal
  have broken := List.any_eq_false.1 unbroken '\n' (style_literal literal)
  exact broken rfl

theorem closeText_inj {s t : List Char} (alike : s.getLast?.any isBreak = t.getLast?.any isBreak)
    (closed : closeText s = closeText t) : s = t := by
  unfold closeText at closed
  rw [alike] at closed
  split at closed
  · exact closed
  · exact List.append_cancel_right closed

theorem scalarLine_literal {n : Nat} {s : List Char} (literal : style s = .literal) :
    scalarLine n s = literalHeader s ++ '\n' :: literalBody n true (closeText s) := by
  unfold scalarLine scalar lineEnd closeText
  cases ends : s.getLast?.any isBreak <;> simp [literal, literalBody_concat]

/-- A literal block comes back from its first line and its lines. -/
theorem literal_cancel {n : Nat} {s t r r' : List Char} (literal : style s = .literal)
    (literal' : style t = .literal) (below : Below n r) (below' : Below n r')
    (same : scalarLine n s ++ r = scalarLine n t ++ r') : s = t ∧ r = r' := by
  have filled : s ≠ [] := List.ne_nil_of_mem (style_literal literal)
  have filled' : t ≠ [] := List.ne_nil_of_mem (style_literal literal')
  obtain ⟨i, c, header, indented, chomped, minus⟩ := literalHeader_cases filled
  obtain ⟨j, d, header', indented', chomped', minus'⟩ := literalHeader_cases filled'
  rw [scalarLine_literal literal, scalarLine_literal literal', header, header'] at same
  simp only [List.cons_append, List.append_assoc, List.cons.injEq, true_and] at same
  have first : c = d ∧
      literalBody n true (closeText s) ++ r = literalBody n true (closeText t) ++ r' := by
    rcases indented with rfl | rfl <;> rcases indented' with rfl | rfl <;>
      rcases chomped with rfl | rfl | rfl <;> rcases chomped' with rfl | rfl | rfl <;>
      simp_all
  obtain ⟨rfl, lines⟩ := first
  obtain ⟨closed, rest⟩ :=
    literalBody_cancel (isClosed_closeText s) (isClosed_closeText t) below below' lines
  have alike : s.getLast?.any isBreak = t.getLast?.any isBreak :=
    Bool.eq_iff_iff.2 (by simpa using minus.symm.trans minus')
  exact ⟨closeText_inj alike closed, rest⟩

theorem style_plain {s : List Char} (plain : style s = .plain) :
    isUntaggedValue s = false ∧ fitsPlain s = true := by
  unfold style at plain
  split at plain
  · split at plain <;> cases plain
  · split at plain
    · next both => simpa using both
    · split at plain <;> cases plain

theorem fitsPlain_exists {s : List Char} (fits : fitsPlain s = true) : ∃ c r, s = c :: r := by
  cases s with
  | nil => cases fits
  | cons c r => exact ⟨c, r, rfl⟩

/-- The style that a first character belongs to. -/
def readStyle : List Char → Style
  | '\'' :: _ => .single
  | '"' :: _ => .double
  | '|' :: _ => .literal
  | _ => .plain

theorem readStyle_plain {s : List Char} (fits : fitsPlain s = true) (r : List Char) :
    readStyle (s ++ r) = .plain := by
  obtain ⟨c, u, rfl⟩ := fitsPlain_exists fits
  obtain ⟨lead, _, _⟩ := fitsPlain_cons fits
  have other : c ≠ '\'' ∧ c ≠ '"' ∧ c ≠ '|' := by
    refine ⟨?_, ?_, ?_⟩ <;> rintro rfl <;> exact lead (by decide)
  unfold readStyle
  split <;> simp_all

/-- A scalar shows its style. -/
theorem readStyle_scalar (n : Nat) (s r : List Char) : readStyle (scalar n s ++ r) = style s := by
  unfold scalar
  cases shape : style s with
  | plain => exact readStyle_plain (style_plain shape).2 r
  | single => rfl
  | double => rfl
  | literal => rfl

theorem EndsScalar.head?_ne {r : List Char} (ends : EndsScalar r) : r.head? ≠ some '\'' := by
  rcases ends with ⟨_, rfl⟩ | ⟨_, _, rfl, _⟩ <;> simp

theorem scalar_cancel {n : Nat} {s t r r' : List Char} (inline : style s ≠ .literal)
    (ends : EndsScalar r) (ends' : EndsScalar r') (same : scalar n s ++ r = scalar n t ++ r') :
    s = t ∧ r = r' := by
  have alike : style s = style t := by
    rw [← readStyle_scalar n s r, same, readStyle_scalar]
  unfold scalar at same
  rw [← alike] at same
  cases shape : style s with
  | plain =>
    simp only [shape] at same
    exact plain_cancel (style_plain shape).2 (style_plain (alike.symm.trans shape)).2 ends ends' same
  | single =>
    simp only [shape, List.cons_append, List.append_assoc, List.nil_append] at same
    exact singleBody_cancel ends.head?_ne ends'.head?_ne (List.cons.inj same).2
  | double =>
    simp only [shape, List.cons_append, List.append_assoc, List.nil_append] at same
    exact doubleBody_cancel (List.cons.inj same).2
  | literal => exact (inline shape).elim

theorem lineEnd_inline {s : List Char} (inline : style s ≠ .literal) : lineEnd s = ['\n'] := by
  simp [lineEnd, inline]

/-- A scalar with the end of its line, before a line that is indented less. -/
theorem scalarLine_cancel {n : Nat} {s t r r' : List Char} (below : Below n r)
    (below' : Below n r') (same : scalarLine n s ++ r = scalarLine n t ++ r') :
    s = t ∧ r = r' := by
  have alike : style s = style t := by
    unfold scalarLine at same
    rw [List.append_assoc, List.append_assoc] at same
    rw [← readStyle_scalar n s (lineEnd s ++ r), same, readStyle_scalar]
  by_cases literal : style s = .literal
  · exact literal_cancel literal (alike.symm.trans literal) below below' same
  · have literal' : style t ≠ .literal := fun block => literal (alike.trans block)
    unfold scalarLine at same
    rw [lineEnd_inline literal, lineEnd_inline literal', List.append_assoc, List.append_assoc]
      at same
    obtain ⟨rfl, rest⟩ := scalar_cancel literal (Or.inl ⟨r, rfl⟩) (Or.inl ⟨r', rfl⟩) same
    exact ⟨rfl, (List.cons.inj rest).2⟩

/-- The beginnings of a scalar: no indentation, no mark of an item or a long key, and no empty list
or map. -/
def OpensScalar : List Char → Prop
  | [] => False
  | c :: r => c ≠ ' ' ∧ isBreak c = false ∧ c ≠ '[' ∧ c ≠ '\x7b' ∧
      (c = '-' ∨ c = '?' ∨ c = ':' → startsSeparated r = false)

theorem opensScalar_plain {s : List Char} (fits : fitsPlain s = true) (r : List Char) :
    OpensScalar (s ++ r) := by
  obtain ⟨c, u, rfl⟩ := fitsPlain_exists fits
  obtain ⟨lead, space, special⟩ := fitsPlain_cons fits
  obtain ⟨_, unbroken⟩ := fitsPlain_inner fits
  refine ⟨space, unbroken c (by simp), ?_, ?_, ?_⟩
  · rintro rfl
    exact lead (by decide)
  · rintro rfl
    exact lead (by decide)
  · intro mark
    have after := special mark
    cases u with
    | nil => cases after
    | cons d u => exact after

theorem opensScalar_mark {c : Char} (mark : c = '\'' ∨ c = '"' ∨ c = '|') (r : List Char) :
    OpensScalar (c :: r) := by
  rcases mark with rfl | rfl | rfl <;> exact ⟨by decide, by decide, by decide, by decide, by simp⟩

theorem opensScalar_scalar (n : Nat) (s r : List Char) : OpensScalar (scalar n s ++ r) := by
  unfold scalar
  cases shape : style s with
  | plain => exact opensScalar_plain (style_plain shape).2 r
  | single => exact opensScalar_mark (Or.inl rfl) _
  | double => exact opensScalar_mark (Or.inr (Or.inl rfl)) _
  | literal => exact opensScalar_mark (Or.inr (Or.inr rfl)) _

/-- A text on one line is written alike at every depth. -/
theorem scalar_indent {s : List Char} (unbroken : s.any isBreak = false) (m n : Nat) :
    scalar m s = scalar n s := by
  have body (r : List Char) (inside : r.any isBreak = false) :
      singleBody m false r = singleBody n false r := by
    induction r with
    | nil => rfl
    | cons c r ih =>
      rw [List.any_cons, Bool.or_eq_false_iff] at inside
      rw [singleBody_char inside.1, singleBody_char inside.1, ih inside.2]
      rfl
  unfold scalar
  cases shape : style s with
  | plain => rfl
  | single => simp only [body s unbroken]
  | double => rfl
  | literal => exact (style_unbroken unbroken shape).elim

end PluginDescriptor.Yaml
