import PluginDescriptor.Proofs.Yaml.Block

namespace PluginDescriptor

namespace Text

/-- Line feeds and carriage returns end a line. -/
def endsLine (c : Char) : Bool := c == '\n' || c == '\r'

theorem endsLine_eq_false {c : Char} (feed : c ≠ '\n') (carriage : c ≠ '\r') :
    endsLine c = false := by
  simp [endsLine, feed, carriage]

/-- The lines of a text, without the characters that end them. -/
def lines (cs : List Char) : List (List Char) := cs.splitOnP endsLine

def isComment (line : List Char) : Bool := line.head? == some '#'

/-- A line of which a reader takes no notice. -/
def IsIdle (line : List Char) : Prop := line = [] ∨ isComment line = true

theorem isIdle_iff (line : List Char) : IsIdle line ↔ ∀ c ∈ line.head?, c = '#' := by
  cases line <;> simp [IsIdle, isComment]

theorem lines_ne_nil (cs : List Char) : lines cs ≠ [] := List.splitOnP_ne_nil endsLine cs

theorem lines_cons_end {c : Char} (ends : endsLine c = true) (cs : List Char) :
    lines (c :: cs) = [] :: lines cs := by
  rw [lines, List.splitOnP_cons_eq_if_modifyHead, if_pos ends]
  rfl

theorem lines_cons_char {c : Char} (inside : endsLine c = false) (cs : List Char) :
    lines (c :: cs) = (lines cs).modifyHead (List.cons c) := by
  rw [lines, List.splitOnP_cons_eq_if_modifyHead, inside, if_neg Bool.false_ne_true]
  rfl

theorem lines_append_end (l : List Char) {c : Char} (ends : endsLine c = true) (m : List Char) :
    lines (l ++ c :: m) = lines l ++ lines m := List.splitOnP_append_cons l m ends

/-- Every character at the beginning of a line is as `P` says. The text begins a line if it is
`fresh`. -/
def LineStarts (P : Char → Prop) : (fresh : Bool) → List Char → Prop
  | _, [] => True
  | fresh, c :: r => (fresh = true → endsLine c = true ∨ P c) ∧ LineStarts P (endsLine c) r

section LineStarts

variable {P : Char → Prop} {fresh : Bool} {l m : List Char}

/-- On the lines themselves: what they start with is as `P` says, for the first line only if the text
is fresh. -/
theorem lineStarts_iff (cs : List Char) : LineStarts P fresh cs ↔
    (∀ line ∈ (lines cs).tail, ∀ c ∈ line.head?, P c) ∧
      (fresh = true → ∀ line ∈ (lines cs).head?, ∀ c ∈ line.head?, P c) := by
  induction cs generalizing fresh with
  | nil =>
    have one : lines [] = [[]] := List.splitOnP_nil
    simp [LineStarts, one]
  | cons c cs ih =>
    obtain ⟨first, rest, split⟩ := List.exists_cons_of_ne_nil (lines_ne_nil cs)
    rw [LineStarts, ih, split]
    cases ends : endsLine c with
    | true =>
      rw [lines_cons_end ends, split]
      simp [and_comm]
    | false =>
      rw [lines_cons_char ends, split]
      simp [and_comm]

theorem forall_mem_tail_lines (cs : List Char) :
    (∀ line ∈ (lines cs).tail, IsIdle line) ↔ LineStarts (· = '#') false cs := by
  simp [lineStarts_iff, isIdle_iff]

theorem forall_mem_lines (cs : List Char) :
    (∀ line ∈ lines cs, IsIdle line) ↔ LineStarts (· = '#') true cs := by
  obtain ⟨first, rest, split⟩ := List.exists_cons_of_ne_nil (lines_ne_nil cs)
  simp only [lineStarts_iff, split, isIdle_iff]
  simp [and_comm]

theorem LineStarts.mono (starts : LineStarts P true l) : LineStarts P fresh l := by
  cases l with
  | nil => trivial
  | cons c r => exact ⟨fun _ => starts.1 rfl, starts.2⟩

theorem LineStarts.append (first : LineStarts P fresh l) (second : LineStarts P true m) :
    LineStarts P fresh (l ++ m) := by
  induction l generalizing fresh with
  | nil => exact second.mono
  | cons c r ih => exact ⟨first.1, ih first.2⟩

theorem LineStarts.cons {c : Char} (holds : P c) (rest : LineStarts P true l) :
    LineStarts P fresh (c :: l) :=
  ⟨fun _ => Or.inr holds, rest.mono⟩

/-- Nothing begins on a line that has begun and does not end. -/
theorem lineStarts_append_of_inside (inside : ∀ c ∈ l, endsLine c = false) :
    LineStarts P false (l ++ m) ↔ LineStarts P false m := by
  induction l with
  | nil => rfl
  | cons c r ih =>
    rw [List.forall_mem_cons] at inside
    rw [List.cons_append, LineStarts, inside.1, ih inside.2]
    simp

theorem lineStarts_of_inside {c : Char} (holds : P c) (inside : ∀ d ∈ c :: l, endsLine d = false) :
    LineStarts P true (c :: l) := by
  rw [List.forall_mem_cons] at inside
  have rest := (lineStarts_append_of_inside (P := P) (m := []) inside.2).2 trivial
  rw [List.append_nil] at rest
  refine ⟨fun _ => Or.inr holds, ?_⟩
  rwa [inside.1]

/-- At a character inside of a line a text can be taken apart. -/
theorem lineStarts_append_cons {c : Char} (inside : endsLine c = false) :
    LineStarts P fresh (l ++ c :: m) ↔ LineStarts P fresh (l ++ [c]) ∧ LineStarts P false m := by
  induction l generalizing fresh with
  | nil => simp [LineStarts, inside]
  | cons d r ih => simp only [List.cons_append, LineStarts, ih, and_assoc]

end LineStarts

end Text

namespace Yaml

open Text

/-- No line of the text is a comment. -/
abbrev Uncommented (cs : List Char) : Prop := LineStarts (· ≠ '#') true cs

theorem isBreak_of_endsLine {c : Char} (ends : endsLine c = true) : isBreak c = true := by
  simp only [endsLine, Bool.or_eq_true] at ends
  simp only [isBreak, Bool.or_eq_true]
  exact Or.inl (Or.inl (Or.inl ends))

theorem endsLine_of_not_isBreak {c : Char} (inside : isBreak c = false) : endsLine c = false := by
  cases ends : endsLine c with
  | false => rfl
  | true =>
    rw [isBreak_of_endsLine ends] at inside
    cases inside

theorem uncommented_spaces (n : Nat) : Uncommented (spaces n) := by
  induction n with
  | zero => trivial
  | succ n ih => exact ih.cons (by decide)

theorem endsLine_of_isPrintable {c : Char} (printable : isPrintable c = true) (feed : c ≠ '\n') :
    endsLine c = false := by
  refine endsLine_eq_false feed ?_
  rintro rfl
  exact absurd printable (by decide)

theorem mem_singleBody {n : Nat} {broken : Bool} {s : List Char} {c : Char}
    (member : c ∈ singleBody n broken s) : c = ' ' ∨ c = '\'' ∨ c ∈ s := by
  have indentation (broken : Bool) (inside : c ∈ margin n broken) : c = ' ' := by
    cases broken with
    | false => cases inside
    | true => exact List.eq_of_mem_replicate inside
  induction s generalizing broken with
  | nil => exact Or.inl (indentation broken member)
  | cons d r ih =>
    have later (inside : c ∈ singleBody n (isBreak d) r) : c = ' ' ∨ c = '\'' ∨ c ∈ d :: r :=
      (ih inside).imp_right (Or.imp_right (List.mem_cons_of_mem d))
    cases kind : isBreak d with
    | true =>
      rw [singleBody_break kind, List.mem_cons] at member
      rcases member with rfl | member
      · exact Or.inr (Or.inr List.mem_cons_self)
      · exact later (kind ▸ member)
    | false =>
      rw [singleBody_char kind, List.mem_append, List.mem_append] at member
      rcases member with before | here | member
      · exact Or.inl (indentation broken before)
      · unfold quotes at here
        split at here <;> simp_all
      · exact later (kind ▸ member)

theorem numberFrom?_mem {base acc n : Nat} {cs : List Char} (read : numberFrom? base acc cs = some n)
    {c : Char} (member : c ∈ cs) : ∃ d, digitValue? base c = some d := by
  induction cs generalizing acc with
  | nil => cases member
  | cons e r ih =>
    rw [numberFrom?] at read
    split at read
    · cases read
    · next d digit =>
      rcases List.mem_cons.1 member with rfl | later
      · exact ⟨d, digit⟩
      · exact ih read later

theorem endsLine_of_digitValue? {c : Char} {d : Nat} (digit : digitValue? 16 c = some d) :
    endsLine c = false := by
  have feed : digitValue? 16 '\n' = none := by decide
  have carriage : digitValue? 16 '\r' = none := by decide
  refine endsLine_eq_false ?_ ?_
  · rintro rfl
    rw [feed] at digit
    cases digit
  · rintro rfl
    rw [carriage] at digit
    cases digit

/-- An escape stays on its line. -/
theorem endsLine_of_mem_escape {c d : Char} (member : d ∈ escape c) : endsLine d = false := by
  rcases escape_cases c with ⟨letter, known, text⟩ | ⟨width, known, _, text⟩
  · have letters : ∀ e ∈ shortEscapes, endsLine e.1 = false := by decide
    rw [text, List.mem_cons, List.mem_singleton] at member
    rcases member with rfl | rfl
    · decide
    · obtain ⟨_, _, split, _⟩ := List.lookup_eq_some_iff.1 known
      exact letters (d, c) (by simp [split])
  · rw [text, List.mem_cons, List.mem_cons] at member
    rcases member with rfl | rfl | digit
    · decide
    · rcases known with rfl | rfl | rfl <;> decide
    · obtain ⟨_, read⟩ := numberFrom?_mem (numberFrom?_hexPadded width c.toNat) digit
      exact endsLine_of_digitValue? read

theorem endsLine_of_mem_doubleChar {c d : Char} (member : d ∈ doubleChar c) : endsLine d = false := by
  unfold doubleChar at member
  split at member
  · exact endsLine_of_mem_escape member
  · next plain =>
    rw [List.mem_singleton] at member
    subst member
    simp only [Bool.or_eq_true, not_or, Bool.not_eq_true] at plain
    exact endsLine_of_not_isBreak plain.1.1.2

/-- In a literal block every line with text is indented. -/
theorem lineStarts_literalBody {n : Nat} (indented : 0 < n) (broken : Bool) (s : List Char) :
    LineStarts (· ≠ '#') broken (literalBody n broken s) := by
  -- After a break the rest begins a line, and what stands there first is a space of the margin.
  induction s generalizing broken with
  | nil => trivial
  | cons c r ih =>
    cases kind : isBreak c with
    | true =>
      rw [literalBody_break kind]
      have mark : c ≠ '#' := by
        rintro rfl
        exact absurd kind (by decide)
      exact (ih true).cons mark
    | false =>
      have inside := endsLine_of_not_isBreak kind
      have rest : LineStarts (· ≠ '#') false (c :: literalBody n false r) := by
        refine ⟨nofun, ?_⟩
        rw [inside]
        exact ih false
      rw [literalBody_char kind]
      cases broken with
      | false => exact rest
      | true =>
        obtain ⟨k, rfl⟩ := Nat.exists_eq_succ_of_ne_zero (Nat.ne_of_gt indented)
        refine ⟨fun _ => Or.inr (by decide), ?_⟩
        have gap : ∀ d ∈ spaces k, endsLine d = false := fun d member => by
          rw [List.eq_of_mem_replicate member]
          decide
        exact (lineStarts_append_of_inside gap).2 rest

theorem style_single {s : List Char} (single : style s = .single) :
    '\n' ∉ s ∧ ∀ c ∈ s, isPrintable c = true := by
  unfold style at single
  split at single
  · split at single <;> cases single
  · next unbroken =>
    split at single
    · cases single
    · split at single
      · next fits =>
        simp only [fitsSingle, Bool.and_eq_true, List.all_eq_true] at fits
        exact ⟨by simpa using unbroken, fits.1.1⟩
      · cases single

/-- No line of a scalar is a comment. -/
theorem uncommented_scalar {n : Nat} (indented : 0 < n) (s : List Char) :
    Uncommented (scalar n s) := by
  unfold scalar
  cases shape : style s with
  | plain =>
    have fits := (style_plain shape).2
    obtain ⟨c, r, rfl⟩ := fitsPlain_exists fits
    have lead : c ≠ '#' := by
      rintro rfl
      exact (fitsPlain_cons fits).1 (by decide)
    exact lineStarts_of_inside lead fun d member =>
      endsLine_of_not_isBreak ((fitsPlain_inner fits).2 d member)
  | single =>
    obtain ⟨unbroken, printable⟩ := style_single shape
    change Uncommented ('\'' :: (singleBody n false s ++ ['\'']))
    refine lineStarts_of_inside (by decide) ?_
    rw [List.forall_mem_cons, List.forall_mem_append]
    refine ⟨rfl, fun d member => ?_, by simp [endsLine]⟩
    rcases mem_singleBody member with rfl | rfl | inText
    · decide
    · decide
    · exact endsLine_of_isPrintable (printable d inText) fun feed => unbroken (feed ▸ inText)
  | double =>
    change Uncommented ('"' :: (s.flatMap doubleChar ++ ['"']))
    refine lineStarts_of_inside (by decide) ?_
    rw [List.forall_mem_cons, List.forall_mem_append, List.forall_mem_flatMap]
    exact ⟨rfl, fun _ _ _ => endsLine_of_mem_doubleChar, by simp [endsLine]⟩
  | literal =>
    have filled : s ≠ [] := List.ne_nil_of_mem (style_literal shape)
    obtain ⟨indentation, chomping, text, digit, sign, _⟩ := literalHeader_cases filled
    have header : Uncommented (literalHeader s) := by
      rw [text]
      rcases digit with rfl | rfl <;> rcases sign with rfl | rfl | rfl <;>
        exact lineStarts_of_inside (by decide) (by simp [endsLine])
    exact header.append ((lineStarts_literalBody indented true s).cons (by decide))

theorem uncommented_scalarLine {n : Nat} (indented : 0 < n) (s : List Char) :
    Uncommented (scalarLine n s) := by
  have ending : Uncommented (lineEnd s) := by
    unfold lineEnd
    split
    · trivial
    · exact LineStarts.cons (by decide) trivial
  exact (uncommented_scalar indented s).append ending

theorem uncommented_itemLines (n : Nat) (items : List String) : Uncommented (itemLines n items) := by
  induction items with
  | nil => trivial
  | cons s items ih =>
    rw [itemLines_cons]
    have first := uncommented_scalarLine (n := n + 2) (by omega) s.toList
    have rest : Uncommented (moreItems n items) := by
      unfold moreItems
      split
      · trivial
      · exact (uncommented_spaces n).append ih
    exact ((first.append rest).cons (by decide)).cons (by decide)

/-- Whatever the indentation, no line of the value is a comment. -/
def IsUncommented (v : Value) : Prop :=
  ∀ n, Uncommented (simpleValue n v) ∧ Uncommented (complexValue n v)

theorem uncommented_entryLine {n : Nat} {k : String} {v : Value} (value : IsUncommented v) :
    Uncommented (entryLine n k v) := by
  unfold entryLine
  split
  · have key := uncommented_scalar (n := n + 2) (by omega) k.toList
    exact key.append ((value n).1.cons (by decide))
  · have key := uncommented_scalarLine (n := n + 2) (by omega) k.toList
    have rest := (uncommented_spaces n).append ((value n).2.cons (c := ':') (by decide))
    rw [List.append_assoc]
    exact ((key.append rest).cons (by decide)).cons (by decide)

theorem uncommented_entryLines {n : Nat} {es : List (String × Value)}
    (values : ∀ e ∈ es, IsUncommented e.2) : Uncommented (entryLines n es) := by
  induction es with
  | nil =>
    rw [entryLines]
    trivial
  | cons e es ih =>
    rw [List.forall_mem_cons] at values
    have rest : Uncommented (moreEntries n es) := by
      unfold moreEntries
      split
      · trivial
      · exact (uncommented_spaces n).append (ih values.2)
    rw [entryLines_cons]
    exact (uncommented_entryLine values.1).append rest

theorem isUncommented_of_inner {v : Value} (inner : ∀ es, v = .map es → ∀ e ∈ es, IsUncommented e.2) :
    IsUncommented v := by
  intro n
  have text : Uncommented (body n v) := by
    rcases v with s | b | (_ | ⟨x, xs⟩) | (_ | ⟨e, es⟩)
    · exact uncommented_scalarLine (by omega) _
    · cases b <;> simp [body, flagText, LineStarts, endsLine]
    · simp [body, LineStarts, endsLine]
    · exact uncommented_itemLines ..
    · simp [body, LineStarts, endsLine]
    · exact uncommented_entryLines (inner _ rfl)
  refine ⟨?_, ?_⟩
  · rcases simpleValue_cases n v with flat | ⟨items, _, _, nested⟩ | ⟨es, shape, _, nested⟩
    · rw [flat]
      exact text.cons (by decide)
    · rw [nested]
      exact ((uncommented_spaces n).append (uncommented_itemLines n items)).cons (by decide)
    · rw [nested]
      exact ((uncommented_spaces _).append (uncommented_entryLines (inner es shape))).cons
        (by decide)
  · rw [complexValue_eq]
    exact text.cons (by decide)

theorem isUncommented (v : Value) : IsUncommented v :=
  isUncommented_of_inner fun es shape e member =>
    have _smaller : sizeOf e.2 < sizeOf v := by
      obtain ⟨k, w⟩ := e
      have smaller := List.sizeOf_lt_of_mem member
      rw [shape]
      simp only [Value.map.sizeOf_spec, Prod.mk.sizeOf_spec] at smaller ⊢
      omega
    isUncommented e.2
termination_by sizeOf v

/-- No line of a document is a comment. -/
theorem uncommented_document (entries : List (String × Value)) :
    Uncommented (document entries) := by
  unfold document
  split
  · simp [LineStarts, endsLine]
  · exact uncommented_entryLines fun e _ => isUncommented e.2

/-- Whatever the texts in a descriptor, no line of its text is a comment. -/
theorem isComment_of_mem_render {d : Document} {line : List Char}
    (member : line ∈ lines (render d).toList) : isComment line = false := by
  rw [render, String.toList_ofList] at member
  obtain ⟨first, rest, split⟩ := List.exists_cons_of_ne_nil (lines_ne_nil (document d.entries))
  obtain ⟨later, opening⟩ := (lineStarts_iff _).1 (uncommented_document d.entries)
  rw [split] at member later opening
  have starts : ∀ c ∈ line.head?, c ≠ '#' := by
    rcases List.mem_cons.1 member with rfl | inside
    · exact opening rfl line rfl
    · exact later line inside
  rw [isComment, beq_eq_false_iff_ne]
  exact fun mark => starts '#' mark rfl

end Yaml

open Text

theorem Timestamp.text_inside (t : Timestamp) : ∀ c ∈ (t.text "/").toList, endsLine c = false := by
  have padded (width n : Nat) : ∀ c ∈ (padded width n).toList, endsLine c = false := by
    intro c member
    have digit : c.isDigit = true := by
      rw [Timestamp.padded, String.toList_ofList, List.mem_append] at member
      rcases member with zero | digit
      · rw [List.eq_of_mem_replicate zero]
        rfl
      · exact Nat.isDigit_of_mem_toDigits (by decide) (by decide) digit
    refine endsLine_eq_false ?_ ?_
    · rintro rfl
      cases digit
    · rintro rfl
      cases digit
  have year : ∀ c ∈ (yearText t.year).toList, endsLine c = false := by
    intro c member
    rw [yearText, String.toList_append, List.mem_append] at member
    rcases member with sign | number
    · split at sign
      · simp_all [endsLine]
      · split at sign <;> simp_all [endsLine]
    · exact padded _ _ c number
  simp only [text, String.toList_append, List.forall_mem_append]
  refine ⟨⟨⟨⟨⟨⟨⟨⟨⟨⟨year, ?_⟩, padded _ _⟩, ?_⟩, padded _ _⟩, ?_⟩, padded _ _⟩, ?_⟩, padded _ _⟩, ?_⟩,
    padded _ _⟩ <;> simp [endsLine]

namespace Stamp

/-- The texts that the user has chosen do not lead out of the comment: wherever they go on in a new
line, this is empty or a comment of its own. A comma follows the name of the file on its last line. -/
structure KeepsComment (s : Stamp) : Prop where
  artifactName : ∀ line ∈ (lines (s.artifactName.toList ++ [','])).tail, IsIdle line
  toolId : ∀ line ∈ (lines s.toolId.toList).tail, IsIdle line

/-- The head of the file without the two line feeds at its end. -/
def comment (s : Stamp) : List Char :=
  "# Auto-generated ".toList ++ s.artifactName.toList ++ ", generated at ".toList ++
    (s.time.text "/").toList ++ " by ".toList ++ s.toolId.toList

theorem header_eq (s : Stamp) : s.header.toList = s.comment ++ ['\n', '\n'] := by
  have ending : "\n\n".toList = ['\n', '\n'] := by simp
  unfold header comment
  simp only [String.toList_append, ending]

/-- The comment with its mark and the comma after the name of the file set apart. -/
theorem comment_eq (s : Stamp) :
    s.comment = '#' :: (" Auto-generated ".toList ++ (s.artifactName.toList ++
      ',' :: (" generated at ".toList ++ (s.time.text "/").toList ++ " by ".toList ++
        s.toolId.toList))) := by
  have first : "# Auto-generated ".toList = '#' :: " Auto-generated ".toList := by simp
  have second : ", generated at ".toList = ',' :: " generated at ".toList := by simp
  unfold comment
  simp only [first, second, List.cons_append, List.append_assoc]

/-- All lines of the head of the file are idle if the chosen texts keep to the comment. -/
theorem comment_lines (s : Stamp) : (∀ line ∈ lines s.comment, IsIdle line) ↔ s.KeepsComment := by
  have opening : ∀ c ∈ " Auto-generated ".toList, endsLine c = false := by simp [endsLine]
  have middle : ∀ c ∈ " generated at ".toList ++ (s.time.text "/").toList ++ " by ".toList,
      endsLine c = false := by
    simp only [List.forall_mem_append]
    exact ⟨⟨by simp [endsLine], s.time.text_inside⟩, by simp [endsLine]⟩
  have comma : endsLine ',' = false := rfl
  have mark : endsLine '#' = false := rfl
  have keeps : s.KeepsComment ↔ LineStarts (· = '#') false (s.artifactName.toList ++ [',']) ∧
      LineStarts (· = '#') false s.toolId.toList := by
    rw [← forall_mem_tail_lines, ← forall_mem_tail_lines]
    exact ⟨fun k => ⟨k.artifactName, k.toolId⟩, fun ⟨artifactName, toolId⟩ => ⟨artifactName, toolId⟩⟩
  rw [forall_mem_lines, comment_eq, LineStarts, mark, lineStarts_append_of_inside opening,
    lineStarts_append_cons comma, lineStarts_append_of_inside middle, ← keeps]
  exact and_iff_right fun _ => Or.inr rfl

theorem lines_comment_append (s : Stamp) (cs : List Char) :
    lines (s.comment ++ ['\n', '\n'] ++ cs) = lines s.comment ++ [] :: lines cs := by
  have feed : endsLine '\n' = true := rfl
  rw [List.append_assoc, List.cons_append, List.cons_append, List.nil_append,
    lines_append_end _ feed, lines_cons_end feed]

theorem lines_header (s : Stamp) : lines s.header.toList = lines s.comment ++ [[], []] := by
  have last : lines [] = [[]] := List.splitOnP_nil
  have all := s.lines_comment_append []
  rw [List.append_nil, last] at all
  rw [header_eq, all]

/-- A file without its comments: what is left of its head, and the text of the descriptor. -/
theorem filter_lines_render (s : Stamp) (d : Document) :
    (lines (s.render d).toList).filter (!isComment ·) =
      ((lines s.comment).filter (!isComment ·) ++ [[]]) ++ lines (Yaml.render d).toList := by
  have body : (lines (Yaml.render d).toList).filter (!isComment ·) =
      lines (Yaml.render d).toList := by
    rw [List.filter_eq_self]
    intro line member
    rw [Yaml.isComment_of_mem_render member]
    rfl
  rw [render, String.toList_append, header_eq, lines_comment_append, List.filter_append,
    List.filter_cons_of_pos rfl, body, List.append_assoc]
  rfl

/-- The head of a descriptor file is a comment exactly if the chosen texts keep to it. Exactly then the
file says what the descriptor says: without its comments it is the text of the descriptor after some
empty lines. -/
theorem keepsComment_iff (s : Stamp) (d : Document) :
    ((∀ line ∈ lines s.header.toList, IsIdle line) ↔ s.KeepsComment) ∧
    ((∃ n, (lines (s.render d).toList).filter (!isComment ·) =
        List.replicate n [] ++ lines (Yaml.render d).toList) ↔ s.KeepsComment) := by
  rw [← comment_lines, lines_header, filter_lines_render]
  refine ⟨?_, ?_⟩
  · have blank : ∀ line ∈ ([[], []] : List (List Char)), IsIdle line := by simp [IsIdle]
    rw [List.forall_mem_append]
    exact and_iff_left blank
  · simp only [List.append_cancel_right_eq, List.eq_replicate_iff, List.forall_mem_append,
      List.mem_filter]
    constructor
    · rintro ⟨_, _, blank, _⟩ line member
      cases kind : isComment line with
      | true => exact Or.inr kind
      | false => exact Or.inl (blank line ⟨member, by rw [kind]; rfl⟩)
    · intro idle
      refine ⟨_, rfl, ?_, by simp⟩
      rintro line ⟨member, other⟩
      rcases idle line member with blank | comment
      · exact blank
      · rw [comment] at other
        cases other

/-- A line feed in the name of the tool makes what comes after it a key of the descriptor. -/
theorem header_leads_out : "name: Other".toList ∈
    lines (Stamp.header ⟨"gradle\nname: Other", "plugin.yml", ⟨2024, 1, 2, 3, 4, 5⟩⟩).toList ∧
      ¬ IsIdle "name: Other".toList := by
  have other : ¬ IsIdle "name: Other".toList := by simp [IsIdle, isComment]
  refine ⟨?_, other⟩
  decide +kernel

end Stamp
end PluginDescriptor
