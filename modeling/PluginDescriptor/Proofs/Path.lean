import Mathlib.Data.List.TakeWhile
import PluginDescriptor.Path

namespace PluginDescriptor.Path

theorem split_ne_nil (cs : List Char) : split cs ≠ [] := by
  cases cs with
  | nil => exact List.cons_ne_nil _ _
  | cons c r =>
    rw [split]
    split
    · exact List.cons_ne_nil _ _
    · split <;> exact List.cons_ne_nil _ _

theorem split_slash (r : List Char) : split ('/' :: r) = [] :: split r := by
  rw [split]
  split
  · next none => exact (split_ne_nil r none).elim
  · next g gs rest => rw [if_pos rfl, rest]

theorem split_append (cs r : List Char) : split (cs ++ '/' :: r) = split cs ++ split r := by
  induction cs with
  | nil => exact split_slash r
  | cons c cs ih =>
    rw [List.cons_append, split, ih]
    obtain ⟨g, gs, front⟩ := List.exists_cons_of_ne_nil (split_ne_nil cs)
    rw [split, front]
    simp only [List.cons_append]
    split <;> rfl

theorem split_of_not_mem {cs : List Char} (whole : '/' ∉ cs) : split cs = [cs] := by
  induction cs with
  | nil => rfl
  | cons c cs ih =>
    rw [List.mem_cons, not_or] at whole
    rw [split, ih whole.2]
    exact if_neg (Ne.symm whole.1)

/-- A text between slashes that stands for no step. -/
def IsBlank (cs : List Char) : Prop := cs = [] ∨ cs = ['.']

theorem IsBlank.step?_eq_none {cs : List Char} (blank : IsBlank cs) :
    step? (String.ofList cs) = none := by
  rcases blank with rfl | rfl <;> rfl

/-- Slashes and single points, which name nothing at the end of a path. -/
def NamesNothing (cs : List Char) : Prop := cs = [] ∨ ∃ r, cs = '/' :: r ∧ ∀ s ∈ split r, IsBlank s

theorem NamesNothing.append {cs s : List Char} (nothing : NamesNothing cs) (whole : '/' ∉ s)
    (blank : IsBlank s) : NamesNothing (cs ++ '/' :: s) := by
  right
  rcases nothing with rfl | ⟨r, rfl, blanks⟩
  · refine ⟨s, rfl, ?_⟩
    rw [split_of_not_mem whole]
    simpa using blank
  · refine ⟨r ++ '/' :: s, rfl, ?_⟩
    rw [split_append, split_of_not_mem whole]
    intro t member
    rcases List.mem_append.1 member with early | late
    · exact blanks t early
    · exact List.mem_singleton.1 late ▸ blank

theorem exists_dropEmptyEnd (l : List Char) :
    ∃ tail, NamesNothing tail ∧ l.reverse = (dropEmptyEnd l).reverse ++ tail := by
  induction length : l.length using Nat.strongRecOn generalizing l with
  | ind n ih =>
    unfold dropEmptyEnd
    split
    · next r =>
      have shorter : r.length < n := by
        simp only [← length, List.length_cons]
        omega
      obtain ⟨tail, nothing, text⟩ := ih r.length shorter r rfl
      refine ⟨tail ++ ['/'], nothing.append List.not_mem_nil (Or.inl rfl), ?_⟩
      rw [List.reverse_cons, text, List.append_assoc]
    · next r =>
      -- The point goes together with the slash before it.
      have shorter : r.length < n := by
        simp only [← length, List.length_cons]
        omega
      obtain ⟨tail, nothing, text⟩ := ih r.length shorter r rfl
      refine ⟨tail ++ ['/', '.'], nothing.append (by simp) (Or.inr rfl), ?_⟩
      rw [dropEmptyEnd, List.reverse_cons, List.reverse_cons, text]
      simp
    · exact ⟨[], Or.inl rfl, by simp⟩

theorem takeWhile_reverse_ne {c : Char} {l m : List Char} (last : c ∉ m) :
    ((l ++ c :: m).reverse.takeWhile (· ≠ c)).reverse = m ∧
      (l ++ c :: m).reverse.dropWhile (· ≠ c) = c :: l.reverse := by
  have before : ∀ d ∈ m.reverse, decide (d ≠ c) = true := by
    intro d member
    simp only [decide_eq_true_eq]
    rintro rfl
    exact last (List.mem_reverse.1 member)
  rw [List.reverse_append, List.reverse_cons, List.append_assoc, List.takeWhile_append_of_pos before,
    List.dropWhile_append_of_pos before]
  simp

/-- Nothing, or a text up to a slash. -/
def IsFront (front : List Char) : Prop := front = [] ∨ ∃ f, front = f ++ ['/']

/-- The texts between the slashes of a front. -/
def frontSegments (front : List Char) : List String := (split front).dropLast.map String.ofList

theorem split_front {front : List Char} (ends : IsFront front) (cs : List Char) :
    split (front ++ cs) = (split front).dropLast ++ split cs := by
  rcases ends with rfl | ⟨f, rfl⟩
  · rfl
  · have slash : split (f ++ ['/']) = split f ++ [[]] := split_append f []
    rw [slash, List.append_assoc, List.singleton_append, split_append]
    simp

/-- A text between slashes that stands for a step down. -/
def IsName (cs : List Char) : Prop := cs ≠ [] ∧ cs ≠ ['.'] ∧ cs ≠ ['.', '.']

/-- A path that ends in a name: what comes before the name, the name, and what names nothing. -/
structure EndsIn (p : Path) (front name tail : List Char) : Prop where
  text : p.text.toList = front ++ name ++ tail
  front : IsFront front
  whole : '/' ∉ name
  isName : IsName name
  tail : NamesNothing tail

theorem isFront_dropWhile (l : List Char) : IsFront (l.dropWhile (· ≠ '/')).reverse := by
  cases shape : l.dropWhile (· ≠ '/') with
  | nil => exact Or.inl rfl
  | cons c r =>
    have first := List.head?_dropWhile_not (· ≠ '/') l
    rw [shape] at first
    have slash : c = '/' := by simpa using first
    exact Or.inr ⟨r.reverse, by rw [slash, List.reverse_cons]⟩

theorem splitName?_eq_some {p : Path} {front name : List Char}
    (named : p.splitName? = some (front, name)) : ∃ tail, p.EndsIn front name tail := by
  simp only [splitName?] at named
  obtain ⟨tail, nothing, text⟩ := exists_dropEmptyEnd p.text.toList.reverse
  split at named
  · cases named
  · next isName =>
    cases named
    refine ⟨tail, ?_, isFront_dropWhile _, ?_, ?_, nothing⟩
    · rw [← List.reverse_append, List.takeWhile_append_dropWhile, ← text, List.reverse_reverse]
    · intro member
      have other := List.mem_takeWhile_imp (List.mem_reverse.1 member)
      simp at other
    · simpa [IsName, not_or] using isName

theorem split_whole_append {name tail : List Char} (whole : '/' ∉ name)
    (nothing : NamesNothing tail) :
    ∃ blanks, split (name ++ tail) = name :: blanks ∧ ∀ s ∈ blanks, IsBlank s := by
  rcases nothing with rfl | ⟨r, rfl, blank⟩
  · refine ⟨[], ?_, by simp⟩
    rw [List.append_nil, split_of_not_mem whole]
  · refine ⟨split r, ?_, blank⟩
    rw [split_append, split_of_not_mem whole]
    rfl

namespace EndsIn

variable {p : Path} {front name tail : List Char}

/-- The texts between the slashes end in the name, but for some that name nothing. -/
theorem segments (ends : p.EndsIn front name tail) :
    ∃ blanks, p.segments = frontSegments front ++ String.ofList name :: blanks ∧
      ∀ s ∈ blanks, step? s = none := by
  obtain ⟨blanks, last, blank⟩ := split_whole_append ends.whole ends.tail
  refine ⟨blanks.map String.ofList, ?_, ?_⟩
  · rw [Path.segments, ends.text, List.append_assoc, split_front ends.front, last, List.map_append]
    rfl
  · intro s member
    obtain ⟨cs, among, rfl⟩ := List.mem_map.1 member
    exact (blank cs among).step?_eq_none

end EndsIn

theorem dropEmptyEnd_of_name {name : List Char} (front : List Char) (whole : '/' ∉ name)
    (filled : name ≠ []) (isName : name ≠ ['.']) :
    dropEmptyEnd (name.reverse ++ front.reverse) = name.reverse ++ front.reverse := by
  have whole' : '/' ∉ name.reverse := by simpa using whole
  cases shape : name.reverse with
  | nil => exact (filled (List.reverse_eq_nil_iff.1 shape)).elim
  | cons c r =>
    rw [shape] at whole'
    rw [List.cons_append]
    unfold dropEmptyEnd
    split
    · next same => exact absurd (List.cons.inj same).1.symm (by simp at whole'; exact whole'.1)
    · next rest same =>
      obtain ⟨rfl, after⟩ := List.cons.inj same
      cases r with
      | nil => exact (isName (List.reverse_eq_iff.1 shape)).elim
      | cons d r =>
        obtain ⟨rfl, _⟩ := List.cons.inj after
        exact (whole' (by simp)).elim
    · rfl

/-- The text after the last slash is the name, if it is one. -/
theorem splitName?_of_text {p : Path} {front name : List Char} (text : p.text.toList = front ++ name)
    (ends : IsFront front) (whole : '/' ∉ name) (filled : name ≠ []) (isName : name ≠ ['.']) :
    p.splitName? = if name = ['.', '.'] then none else some (front, name) := by
  have kept := dropEmptyEnd_of_name front whole filled isName
  have before : ∀ d ∈ name.reverse, decide (d ≠ '/') = true := by
    intro d member
    simp only [decide_eq_true_eq]
    rintro rfl
    exact whole (List.mem_reverse.1 member)
  have stops : front.reverse.takeWhile (· ≠ '/') = [] ∧
      front.reverse.dropWhile (· ≠ '/') = front.reverse := by
    rcases ends with rfl | ⟨f, rfl⟩ <;> simp
  simp only [splitName?, text, List.reverse_append, kept, List.takeWhile_append_of_pos before,
    List.dropWhile_append_of_pos before, stops, List.append_nil, List.reverse_reverse, filled,
    isName, false_or]

/-- The last point of a name sets off its extension, unless it stands in front. -/
theorem splitExtension_last (stem : List Char) {after : List Char} (last : '.' ∉ after) :
    splitExtension (stem ++ '.' :: after) =
      if stem = [] then (stem ++ '.' :: after, none) else (stem, some after) := by
  obtain ⟨ending, rest⟩ := takeWhile_reverse_ne (l := stem) last
  simp only [splitExtension, ending, rest]
  simp

theorem splitExtension_of_not_mem {name : List Char} (none : '.' ∉ name) :
    splitExtension name = (name, Option.none) := by
  have all : ∀ d ∈ name.reverse, decide (d ≠ '.') = true := by
    intro d member
    simp only [decide_eq_true_eq]
    rintro rfl
    exact none (List.mem_reverse.1 member)
  have rest : name.reverse.dropWhile (· ≠ '.') = [] := List.dropWhile_eq_nil_iff.2 all
  simp only [splitExtension, rest]
  rfl

/-- A name is its stem, or its stem and its extension with a point between them. -/
theorem splitExtension_cases (name : List Char) :
    splitExtension name = (name, none) ∨ ∃ stem after, splitExtension name = (stem, some after) ∧
      stem ≠ [] ∧ '.' ∉ after ∧ name = stem ++ '.' :: after := by
  by_cases member : '.' ∈ name
  · obtain ⟨u, v, text, last⟩ := List.eq_append_cons_of_mem (List.mem_reverse.2 member)
    have shape : name = v.reverse ++ '.' :: u.reverse := by
      rw [← List.reverse_reverse name, text]
      simp
    have last' : '.' ∉ u.reverse := by simpa using last
    have split := splitExtension_last v.reverse last'
    rw [← shape] at split
    by_cases front : v.reverse = []
    · rw [if_pos front] at split
      exact Or.inl split
    · rw [if_neg front] at split
      exact Or.inr ⟨_, _, split, front, last', shape⟩
  · exact Or.inl (splitExtension_of_not_mem member)

/-- A path with another extension differs in its last name only. That is no name when a single
point is all that is left of it without the extension. -/
theorem withExtension_text {p : Path} {front name : List Char}
    (named : p.splitName? = some (front, name)) {extension : String} (whole : '/' ∉ extension.toList)
    (pointed : '.' ∈ extension.toList) :
    ∃ y, (p.withExtension extension).text.toList = front ++ y ∧ '/' ∉ y ∧
      (y = ['.', '.'] ∨ IsName y ∧ y ≠ name) := by
  obtain ⟨tail, ends⟩ := splitName?_eq_some named
  have suitable (stem : List Char) (filled : stem ≠ []) (inside : '/' ∉ stem)
      (other : stem ++ '.' :: extension.toList ≠ name) :
      ∃ y, front ++ stem ++ '.' :: extension.toList = front ++ y ∧ '/' ∉ y ∧
        (y = ['.', '.'] ∨ IsName y ∧ y ≠ name) := by
    refine ⟨stem ++ '.' :: extension.toList, by simp, by simp [inside, whole], Or.inr ⟨?_, other⟩⟩
    have some := List.length_pos_of_mem pointed
    have some' := List.length_pos_iff.2 filled
    refine ⟨?_, ?_, ?_⟩ <;> intro same <;> have length := congrArg List.length same <;>
      simp at length <;> omega
  rcases splitExtension_cases name with bare | ⟨stem, after, parts, filled, last, shape⟩
  · have kept : p.dropExtension = p := by simp [dropExtension, named, bare]
    have text : (p.withExtension extension).text.toList = front ++ name ++ '.' :: extension.toList := by
      simp [withExtension, kept, named, bare]
    rw [text]
    exact suitable name ends.isName.1 ends.whole (by simp)
  · have inside : '/' ∉ stem := fun member => ends.whole (by simp [shape, member])
    have other : stem ++ '.' :: extension.toList ≠ name := by
      rw [shape]
      intro same
      have rest := (List.cons.inj (List.append_cancel_left same)).2
      exact last (rest ▸ pointed)
    by_cases alone : p.text.toList = front ++ name
    · have dropped : p.dropExtension = ⟨String.ofList (front ++ stem ++ ['.'])⟩ := by
        simp [dropExtension, named, parts, alone]
      have text : p.dropExtension.text.toList = front ++ (stem ++ ['.']) := by simp [dropped]
      have again := splitName?_of_text text ends.front (by simp [inside]) (by simp)
        (by simpa using filled)
      split at again
      · next points =>
        refine ⟨['.', '.'], ?_, by decide, Or.inl rfl⟩
        have single : stem = ['.'] := List.append_cancel_right points
        rw [withExtension, again]
        simp [dropped, single]
      · have stemmed : splitExtension (stem ++ ['.']) = _ := splitExtension_last stem List.not_mem_nil
        rw [if_neg filled] at stemmed
        have text : (p.withExtension extension).text.toList =
            front ++ stem ++ '.' :: extension.toList := by
          simp [withExtension, again, stemmed]
        rw [text]
        exact suitable stem filled inside other
    · have kept : p.dropExtension = p := by simp [dropExtension, named, parts, alone]
      have text : (p.withExtension extension).text.toList =
          front ++ stem ++ '.' :: extension.toList := by
        simp [withExtension, kept, named, parts]
      rw [text]
      exact suitable stem filled inside other

/-- The texts between the slashes of such a path. -/
theorem segments_of_text {p : Path} {front y : List Char} (text : p.text.toList = front ++ y)
    (ends : IsFront front) (whole : '/' ∉ y) :
    p.segments = frontSegments front ++ [String.ofList y] := by
  rw [segments, text, split_front ends, split_of_not_mem whole, List.map_append]
  rfl

theorem isAbsolute_eq (p : Path) : p.isAbsolute = (p.text.toList.head? == some '/') := by
  unfold isAbsolute
  split
  · next text => rw [text]; rfl
  · next other => cases text : p.text.toList with
    | nil => rfl
    | cons c r =>
      have slash : c ≠ '/' := by
        rintro rfl
        exact other r text
      simp [slash]

theorem isAbsolute_of_text {p q : Path} {front x y : List Char} (text : p.text.toList = front ++ x)
    (text' : q.text.toList = front ++ y) (other : x.head? ≠ some '/')
    (other' : y.head? ≠ some '/') : p.isAbsolute = q.isAbsolute := by
  rw [isAbsolute_eq, isAbsolute_eq, text, text']
  cases front with
  | nil => rw [List.nil_append, List.nil_append, beq_false_of_ne other, beq_false_of_ne other']
  | cons c front => rfl

theorem isAbsolute_of_within {p q : Path} (within : q.text.toList <+: p.text.toList)
    (filled : q.text ≠ "") : q.isAbsolute = p.isAbsolute := by
  obtain ⟨r, text⟩ := within
  rw [isAbsolute_eq, isAbsolute_eq, ← text]
  cases shape : q.text.toList with
  | nil => exact (filled (String.toList_eq_nil_iff.1 shape)).elim
  | cons c u => rfl

/-- The way to a path as the texts between its slashes give it. -/
theorem steps_eq (p : Path) : ∃ start, (start = [] ∨ start = [.here] ∧ p.isAbsolute = false ∨
    start = [.root] ∧ p.isAbsolute = true) ∧ p.steps = start ++ p.segments.filterMap step? := by
  refine ⟨_, ?_, rfl⟩
  split
  · next absolute => exact Or.inr (Or.inr ⟨rfl, absolute⟩)
  · next relative =>
    split
    · exact Or.inr (Or.inl ⟨rfl, by simpa using relative⟩)
    · exact Or.inl rfl

theorem step?_of_isName {cs : List Char} (isName : IsName cs) :
    step? (String.ofList cs) = some (.name (String.ofList cs)) := by
  obtain ⟨filled, notPoint, notPoints⟩ := isName
  have other (s : List Char) (ne : cs ≠ s) : String.ofList cs ≠ String.ofList s := by
    intro same
    exact ne (by simpa using congrArg String.toList same)
  have notEmpty : String.ofList cs ≠ "" := other [] filled
  have notHere : String.ofList cs ≠ "." := other ['.'] notPoint
  have notUp : String.ofList cs ≠ ".." := other ['.', '.'] notPoints
  simp [step?, notEmpty, notHere, notUp]

theorem filterMap_step?_blank {l : List String} (blank : ∀ s ∈ l, step? s = none) :
    l.filterMap step? = [] := List.filterMap_eq_nil_iff.2 blank

theorem EndsIn.getLast?_steps {p : Path} {front name tail : List Char}
    (ends : p.EndsIn front name tail) :
    p.steps.getLast? = some (.name (String.ofList name)) := by
  obtain ⟨blanks, segments, blank⟩ := ends.segments
  obtain ⟨start, _, steps⟩ := p.steps_eq
  rw [steps, segments, List.filterMap_append, List.filterMap_cons,
    step?_of_isName ends.isName, filterMap_step?_blank blank, ← List.append_assoc]
  simp

theorem splitName?_front {p : Path} {front name : List Char}
    (named : p.splitName? = some (front, name)) :
    (dropEmptyEnd p.text.toList.reverse).dropWhile (· ≠ '/') = front.reverse := by
  simp only [splitName?] at named
  split at named
  · cases named
  · cases named
    rw [List.reverse_reverse]

/-- What is left of the text up to a slash is its text but for what names nothing. -/
theorem steps_dropEmptyEnd {front : List Char} (ends : IsFront front) :
    (dropEmptyEnd front.reverse).reverse <+: front ∧
      ((split (dropEmptyEnd front.reverse).reverse).map String.ofList).filterMap step? =
        (frontSegments front).filterMap step? ∧
      (dropEmptyEnd front.reverse = [] → front ≠ [] → ['/'] <+: front) := by
  rcases ends with rfl | ⟨f, rfl⟩
  · exact ⟨⟨[], rfl⟩, rfl, fun _ filled => (filled rfl).elim⟩
  · have dropped : dropEmptyEnd (f ++ ['/']).reverse = dropEmptyEnd f.reverse := by
      simp [dropEmptyEnd]
    have segments : frontSegments (f ++ ['/']) = (split f).map String.ofList := by
      have slash : split (f ++ ['/']) = split f ++ [[]] := split_append f []
      rw [frontSegments, slash, List.dropLast_concat]
    obtain ⟨tail, nothing, text⟩ := exists_dropEmptyEnd f.reverse
    rw [List.reverse_reverse] at text
    rw [dropped, segments]
    refine ⟨?_, ?_, ?_⟩
    · exact ⟨tail ++ ['/'], by rw [← List.append_assoc, ← text]⟩
    · rcases nothing with rfl | ⟨r, rfl, blank⟩
      · rw [List.append_nil] at text
        rw [← text]
      · have blanks : ((split r).map String.ofList).filterMap step? = [] := by
          refine filterMap_step?_blank ?_
          intro s member
          obtain ⟨cs, among, rfl⟩ := List.mem_map.1 member
          exact (blank cs among).step?_eq_none
        have parts := congrArg split text
        rw [split_append] at parts
        rw [parts, List.map_append, List.filterMap_append, blanks, List.append_nil]
    · intro none _
      rw [none] at text
      rcases nothing with rfl | ⟨r, rfl, _⟩
      · exact ⟨[], by rw [text]; rfl⟩
      · exact ⟨r ++ ['/'], by rw [text]; rfl⟩

/-- The parent of a path that ends in a name has the steps before the name. -/
theorem parent?_of_named {p : Path} {front name : List Char}
    (named : p.splitName? = some (front, name)) :
    ∃ parent, p.parent? = some parent ∧ parent.text.toList <+: front ∧
      parent.segments.filterMap step? = (frontSegments front).filterMap step? ∧
      (parent.text ≠ "" → parent.isAbsolute = p.isAbsolute) := by
  obtain ⟨tail, ends⟩ := splitName?_eq_some named
  have before := splitName?_front named
  obtain ⟨part, steps, root⟩ := steps_dropEmptyEnd ends.front
  have shape : p.parent? = some ⟨String.ofList
      (if (dropEmptyEnd front.reverse).reverse = [] ∧ front.reverse ≠ [] then ['/']
      else (dropEmptyEnd front.reverse).reverse)⟩ := by
    simp only [parent?, ends.getLast?_steps, before]
  have within : (if (dropEmptyEnd front.reverse).reverse = [] ∧ front.reverse ≠ [] then ['/']
      else (dropEmptyEnd front.reverse).reverse) <+: front := by
    split
    · next alone => exact root (by simpa using alone.1) (by simpa using alone.2)
    · exact part
  refine ⟨_, shape, by rwa [String.toList_ofList], ?_, ?_⟩
  · rw [← steps]
    split
    · next alone =>
      rw [alone.1]
      rfl
    · rw [segments, String.toList_ofList]
  · refine isAbsolute_of_within ?_
    rw [String.toList_ofList, ends.text, List.append_assoc]
    exact within.trans (List.prefix_append ..)

end PluginDescriptor.Path
