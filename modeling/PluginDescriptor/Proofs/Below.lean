import PluginDescriptor.Proofs.Bytes
import PluginDescriptor.Proofs.Replacing

namespace PluginDescriptor

/-- A name as files and directories have it. -/
structure IsFileName (s : String) : Prop where
  isName : Path.IsName s.toList
  whole : '/' ∉ s.toList
  fits : FileTree.fits s

instance (s : String) : Decidable (IsFileName s) :=
  decidable_of_iff ((s.toList ≠ [] ∧ s.toList ≠ ['.'] ∧ s.toList ≠ ['.', '.']) ∧
    '/' ∉ s.toList ∧ FileTree.fits s = true) ⟨fun h => ⟨h.1, h.2.1, h.2.2⟩, fun h => ⟨h.1, h.2, h.3⟩⟩

/-- The name of a snapshot: it has the extension `json`. -/
def IsSnapshotName (s : String) : Prop := ∃ stem, stem ≠ "" ∧ s = stem ++ ".json"

namespace Path

/-- The path of what these names lead to from a directory. -/
def below (p : Path) (names : List String) : Path := names.foldl (fun p s => p.join ⟨s⟩) p

theorem below_concat (p : Path) (names : List String) (s : String) :
    p.below (names ++ [s]) = (p.below names).join ⟨s⟩ := List.foldl_concat ..

section

variable {p : Path} (filled : p.text ≠ "") {s : String} (name : IsFileName s)

include filled name

/-- A name comes after the text of the directory, from which a slash at the end is left out. -/
theorem join_text : ∃ f, (p.join ⟨s⟩).text.toList = f ++ '/' :: s.toList ∧
    (p.text.toList = f ∨ p.text.toList = f ++ ['/']) := by
  have relative : Path.isAbsolute ⟨s⟩ = false := by
    rw [isAbsolute_eq, beq_eq_false_iff_ne]
    exact fun first => name.whole (List.mem_of_head? first)
  rw [join, if_neg (by simp [relative])]
  split
  · next none => exact (filled (String.toList_eq_nil_iff.1 (List.getLast?_eq_none_iff.1 none))).elim
  · next slash =>
    obtain ⟨f, text⟩ := List.getLast?_eq_some_iff.1 slash
    exact ⟨f, by simp [text], Or.inr text⟩
  · exact ⟨p.text.toList, by simp, Or.inl rfl⟩

theorem join_segments : ∃ front, (p.join ⟨s⟩).segments = front ++ [s] ∧ front ≠ [] ∧
    (p.segments = front ∨ p.segments = front ++ [""]) := by
  obtain ⟨f, text, before⟩ := join_text filled name
  refine ⟨(split f).map String.ofList, ?_, by simpa using split_ne_nil f, ?_⟩
  · rw [segments, text, split_append, split_of_not_mem name.whole]
    simp
  · unfold segments
    rcases before with same | slash
    · exact Or.inl (by rw [same])
    · refine Or.inr ?_
      rw [slash, split_append, List.map_append]
      rfl

theorem join_isAbsolute : (p.join ⟨s⟩).isAbsolute = p.isAbsolute := by
  obtain ⟨f, text, before⟩ := join_text filled name
  refine (isAbsolute_of_within (q := p) (p := p.join ⟨s⟩) ?_ filled).symm
  rw [text]
  rcases before with same | slash
  · exact ⟨'/' :: s.toList, by rw [same]⟩
  · exact ⟨s.toList, by rw [slash, List.append_assoc]; rfl⟩

omit filled in
theorem step?_fileName : step? s = some (.name s) := by
  have step := step?_of_isName name.isName
  rwa [String.ofList_toList] at step

theorem join_steps : (p.join ⟨s⟩).steps = p.steps ++ [.name s] := by
  obtain ⟨front, segments, some, before⟩ := join_segments filled name
  obtain ⟨c, r, rfl⟩ := List.exists_cons_of_ne_nil some
  have last : [s].filterMap step? = [.name s] := by rw [List.filterMap_cons, step?_fileName name]; rfl
  have blank : [""].filterMap step? = [] := rfl
  unfold steps
  rw [join_isAbsolute filled name, segments, List.filterMap_append, last]
  rcases before with same | slash
  · rw [same]
    simp
  · rw [slash, List.filterMap_append, blank]
    simp

omit filled in
theorem join_filled : (p.join ⟨s⟩).text ≠ "" := by
  have some : s ≠ "" := by
    rintro rfl
    exact name.isName.1 rfl
  unfold join
  split
  · exact some
  · split <;> simp [some]

/-- What comes before the name stands for the same steps as the path of the directory. -/
theorem join_named : ∃ front, (p.join ⟨s⟩).splitName? = some (front, s.toList) ∧
    (frontSegments front).filterMap step? = p.segments.filterMap step? := by
  obtain ⟨f, text, before⟩ := join_text filled name
  obtain ⟨some, notPoint, notPoints⟩ := name.isName
  have shape : (p.join ⟨s⟩).text.toList = (f ++ ['/']) ++ s.toList := by simp [text]
  have named := splitName?_of_text shape (Or.inr ⟨f, rfl⟩) name.whole some notPoint
  refine ⟨f ++ ['/'], named.trans (if_neg notPoints), ?_⟩
  have last : split (f ++ ['/']) = split f ++ [[]] := split_append f []
  rw [frontSegments, last, List.dropLast_concat]
  rcases before with same | slash
  · rw [segments, same]
  · rw [segments, slash, last, List.map_append, List.filterMap_append]
    exact (List.append_nil _).symm

theorem join_extension? :
    (p.join ⟨s⟩).extension? = some "json" ↔ IsSnapshotName s := by
  obtain ⟨front, named, -⟩ := join_named filled name
  have parts : (p.join ⟨s⟩).extension? = (splitExtension s.toList).2.map String.ofList := by
    rw [extension?, named, Option.map_eq_bind]
    rfl
  rw [parts]
  constructor
  · intro json
    rcases splitExtension_cases s.toList with none | ⟨stem, after, split, filled, _, whole⟩
    · rw [none] at json
      cases json
    · rw [split] at json
      have after' : after = ['j', 's', 'o', 'n'] := by
        simpa using congrArg String.toList (Option.some.inj json)
      refine ⟨String.ofList stem, by simpa using filled, ?_⟩
      rw [← String.toList_inj, whole, after']
      simp
  · rintro ⟨stem, filled, rfl⟩
    have last : '.' ∉ ['j', 's', 'o', 'n'] := by decide
    have split := splitExtension_last stem.toList last
    rw [if_neg (by simpa using filled)] at split
    rw [String.toList_append]
    exact (congrArg (fun parts => parts.2.map String.ofList) split).trans rfl

end

section

variable {p : Path} (filled : p.text ≠ "") {names : List String}
  (valid : ∀ s ∈ names, IsFileName s)

include filled valid

theorem below_filled : (p.below names).text ≠ "" := by
  induction names using List.reverseRecOn with
  | nil => exact filled
  | append_singleton names s ih =>
    rw [below_concat]
    exact join_filled (valid s (by simp))

theorem below_steps : (p.below names).steps = p.steps ++ names.map .name := by
  induction names using List.reverseRecOn with
  | nil => exact (List.append_nil _).symm
  | append_singleton names s ih =>
    have valid' : ∀ r ∈ names, IsFileName r := fun r member => valid r (by simp [member])
    rw [below_concat, join_steps (below_filled filled valid') (valid s (by simp)), ih valid']
    simp

end

/-- A step as a row of bytes, so that steps compare as the rows do. -/
def stepKey : PathStep → List UInt8
  | .root => [0]
  | .here => [1]
  | .up => [2]
  | .name s => 3 :: Text.bytes s

/-- What decides the order of paths. -/
def key (p : Path) : List (List UInt8) := p.steps.map stepKey

theorem stepKey_injective : Function.Injective stepKey := by
  intro a b same
  cases a <;> cases b <;> simp [stepKey] at same
  all_goals first | rfl | exact congrArg PathStep.name (Text.bytes_injective same)

theorem stepLt_iff (a b : PathStep) : stepLt a b ↔ stepKey a < stepKey b := by
  cases a <;> cases b <;>
    simp [stepLt, stepKey, PathStep.rank, List.cons_lt_cons_iff, Text.bytes_lt_bytes]

theorem stepsLt_iff (l m : List PathStep) : stepsLt l m ↔ l.map stepKey < m.map stepKey := by
  induction l generalizing m with
  | nil => cases m <;> simp [stepsLt]
  | cons a l ih =>
    cases m with
    | nil => simp [stepsLt]
    | cons b m =>
      rw [stepsLt, List.map_cons, List.map_cons, List.cons_lt_cons_iff]
      by_cases same : a = b
      · subst same
        rw [if_pos rfl, ih]
        have irrefl : ¬ stepKey a < stepKey a := List.lt_irrefl _
        simp [irrefl]
      · rw [if_neg same, stepLt_iff]
        have other : stepKey a ≠ stepKey b := fun key => same (stepKey_injective key)
        simp [other]

theorem before_iff (p q : Path) : p.before q ↔ p.key < q.key := stepsLt_iff _ _

/-- Names compare one after the other, each by its bytes. -/
def namesKey (names : List String) : List (List UInt8) := names.map Text.bytes

theorem namesKey_injective : Function.Injective namesKey :=
  List.map_injective_iff.2 Text.bytes_injective

theorem below_key_lt {p : Path} (filled : p.text ≠ "") {l m : List String}
    (valid : ∀ s ∈ l, IsFileName s) (valid' : ∀ s ∈ m, IsFileName s) :
    (p.below l).key < (p.below m).key ↔ namesKey l < namesKey m := by
  have shared (k : List (List UInt8)) {x y : List (List UInt8)} : k ++ x < k ++ y ↔ x < y := by
    induction k with
    | nil => rfl
    | cons a k ih =>
      have irrefl : ¬ a < a := List.lt_irrefl _
      rw [List.cons_append, List.cons_append, List.cons_lt_cons_iff, ih]
      simp [irrefl]
  rw [key, key, below_steps filled valid, below_steps filled valid', List.map_append,
    List.map_append, shared]
  clear shared valid valid'
  induction l generalizing m with
  | nil => cases m <;> simp [namesKey]
  | cons s l ih =>
    cases m with
    | nil => simp [namesKey]
    | cons r m =>
      unfold namesKey at ih ⊢
      simp only [List.map_cons, List.cons_lt_cons_iff, ih]
      simp [stepKey]

end Path

namespace FileTree

open PluginDescriptor.Path (below)

section

variable {t : FileTree} {p : Path} (filled : p.text ≠ "")

include filled

theorem start_join {s : String} (name : IsFileName s) : t.start (p.join ⟨s⟩) = t.start p := by
  rw [FileTree.start, Path.join_isAbsolute filled name]
  rfl

omit filled in
theorem after_fileName {s : String} (name : IsFileName s) (at_ : Place) : at_.after s = at_ ++ [s] := by
  have isName : at_.after (String.ofList s.toList) = at_ ++ [String.ofList s.toList] :=
    after_of_isName name.isName
  rwa [String.ofList_toList] at isName

/-- A path that ends in a name names a place below that of the rest of the path. -/
theorem walk_join {s : String} (name : IsFileName s) :
    (t.start (p.join ⟨s⟩)).walk (p.join ⟨s⟩).segments = (t.start p).walk p.segments ++ [s] := by
  obtain ⟨front, segments, _, before⟩ := Path.join_segments filled name
  have front' : (t.start p).walk p.segments = (t.start p).walk front := by
    rcases before with same | slash
    · rw [same]
    · rw [slash, walk_append]
      rfl
  rw [start_join filled name, segments, walk_append, front']
  exact after_fileName name _

/-- A name leads from a directory to what is there under the name. -/
theorem follow_join {at_ : Place} {s : String} (name : IsFileName s)
    (leads : t.follow (t.start p) p.segments = some at_) (there : t.isDirectoryAt at_) :
    t.follow (t.start (p.join ⟨s⟩)) (p.join ⟨s⟩).segments = some (at_ ++ [s]) := by
  have last : t.follow at_ [s] = some (at_ ++ [s]) := by
    rw [follow_cons, if_pos ⟨there, name.fits⟩, after_fileName name]
    rfl
  obtain ⟨front, segments, _, before⟩ := Path.join_segments filled name
  rw [start_join filled name, segments, follow_append]
  rcases before with same | slash
  · rw [← same, leads]
    exact last
  · rw [slash, follow_append] at leads
    obtain ⟨q, rest, empty⟩ := Option.bind_eq_some_iff.1 leads
    have stay : q = at_ := (follow_cons_eq_some.1 empty).2.2 |> Option.some.inj
    rw [rest, stay]
    exact last

/-- Below a directory the path of some names leads where the names do. -/
theorem follow_below (wf : t.WellFormed) {at_ : Place} {names : List String}
    (valid : ∀ s ∈ names, IsFileName s) (leads : t.follow (t.start p) p.segments = some at_)
    (found : (t.node? (at_ ++ names)).isSome) :
    t.follow (t.start (p.below names)) (p.below names).segments = some (at_ ++ names) := by
  induction names using List.reverseRecOn with
  | nil => rwa [List.append_nil]
  | append_singleton names s ih =>
    have valid' : ∀ r ∈ names, IsFileName r := fun r member => valid r (by simp [member])
    have directory : t.isDirectoryAt (at_ ++ names) := by
      rw [← List.append_assoc] at found
      exact wf.above (List.cons_ne_nil s []) found
    have before := ih valid' (by rw [isDirectoryAt_iff.1 directory]; rfl)
    rw [Path.below_concat, ← List.append_assoc]
    exact follow_join (Path.below_filled filled valid') (valid s (by simp)) before directory

end

end FileTree
end PluginDescriptor
