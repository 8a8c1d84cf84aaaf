import Mathlib.Data.List.TakeWhile
import PluginDescriptor.Proofs.Schema

namespace PluginDescriptor

/-- A text without white space is not changed by trimming. -/
theorem Text.trim_eq_self {s : String} (solid : ∀ c ∈ s.toList, isBlank c = false) : trim s = s := by
  have ends : ∀ cs : List Char, (∀ c ∈ cs, isBlank c = false) → cs.dropWhile isBlank = cs := by
    intro cs solid
    refine List.dropWhile_eq_self_iff.2 fun filled => ?_
    rw [solid _ (List.getElem_mem filled)]
    exact Bool.false_ne_true
  rw [trim, trimChars, ends _ solid, ends _ fun c member => solid c (List.mem_reverse.1 member),
    List.reverse_reverse, String.ofList_toList]

namespace ApiVersion

/-- The word `default`, with each letter in either case. -/
def IsDefaultWord (t : String) : Prop :=
  List.Forall₂ (fun c letter => c = letter ∨ c = letter.toUpper) t.toList "default".toList

/-- Some ASCII digits, at least one. -/
def IsGroup (g : List Char) : Prop := g ≠ [] ∧ ∀ c ∈ g, c.isDigit = true

/-- The characters are the groups in their order, with one separator between each two. -/
inductive Spells (separators : List Char) : List Char → List (List Char) → Prop
  | last {g : List Char} (digits : IsGroup g) : Spells separators g [g]
  | more {g cs : List Char} {c : Char} {gs : List (List Char)} (digits : IsGroup g)
      (between : c ∈ separators) (others : Spells separators cs gs) :
      Spells separators (g ++ c :: cs) (g :: gs)

/-- The first text asks for the version that the second one is. -/
inductive AsksFor : String → String → Prop
  | plain {t : String} (version : IsVersionText t) : AsksFor t t
  | marked {v : Char} {cs : List Char} {groups : List (List Char)} (mark : v = 'v' ∨ v = 'V')
      (written : Spells ['.', '_'] cs groups) :
      AsksFor (String.ofList (v :: cs)) (String.ofList (['.'].intercalate groups))

theorem ne_of_isDigit {c d : Char} (digit : c.isDigit = true) (other : d.isDigit = false) : c ≠ d := by
  rintro rfl
  exact Bool.false_ne_true (other.symm.trans digit)

theorem not_isBlank_of_isDigit {c : Char} (digit : c.isDigit = true) : Text.isBlank c = false := by
  simp only [Char.isDigit, Bool.and_eq_true, decide_eq_true_eq, ge_iff_le,
    UInt32.le_iff_toNat_le, Char.reduceVal, UInt32.reduceToNat] at digit
  simp only [Text.isBlank, Bool.or_eq_false_iff, Bool.and_eq_false_iff, decide_eq_false_iff_not,
    beq_eq_false_iff_ne, ne_eq, UInt32.le_iff_toNat_le, ← UInt32.toNat_inj, UInt32.reduceToNat]
  omega

theorem toLower_eq_iff {c letter : Char} (small : letter.isLower = true) :
    c.toLower = letter ↔ c = letter ∨ c = letter.toUpper := by
  have bounds := Bool.and_eq_true_iff.1 small
  have within : 'a'.val ≤ letter.val ∧ letter.val ≤ 'z'.val :=
    ⟨of_decide_eq_true bounds.1, of_decide_eq_true bounds.2⟩
  have raised : letter.toUpper.val = letter.val + ('A'.val - 'a'.val) := by
    delta Char.toUpper
    rw [dif_pos within]
  have lowered : c.toLower.val =
      if c.val ≥ 'A'.val ∧ c.val ≤ 'Z'.val then c.val + ('a'.val - 'A'.val) else c.val := by
    delta Char.toLower
    split <;> rfl
  rw [Char.ext_iff, Char.ext_iff, Char.ext_iff, raised, lowered]
  simp only [UInt32.le_iff_toNat_le, ge_iff_le, ← UInt32.toNat_inj, apply_ite UInt32.toNat,
    UInt32.toNat_add, Char.reduceVal, UInt32.reduceSub, UInt32.reduceToNat] at within ⊢
  split <;> omega

theorem map_toLower_eq_iff {letters cs : List Char} (small : ∀ l ∈ letters, l.isLower = true) :
    cs.map Char.toLower = letters ↔
      List.Forall₂ (fun c letter => c = letter ∨ c = letter.toUpper) cs letters := by
  induction letters generalizing cs with
  | nil => rw [List.map_eq_nil_iff, List.forall₂_nil_right_iff]
  | cons l letters ih =>
    obtain ⟨first, others⟩ := List.forall_mem_cons.1 small
    cases cs with
    | nil => simp only [List.map_nil, List.nil_eq, reduceCtorEq, List.forall₂_nil_left_iff]
    | cons c cs =>
      rw [List.map_cons, List.cons.injEq, toLower_eq_iff first, ih others, List.forall₂_cons]

theorem isDefault_iff {t : String} : isDefault t.toList = true ↔ IsDefaultWord t := by
  rw [isDefault, beq_iff_eq, map_toLower_eq_iff (List.all_eq_true.1 rfl), IsDefaultWord]

section Spelling

variable {cs : List Char} {gs : List (List Char)} {separators : List Char}

theorem Spells.isGroup (spells : Spells separators cs gs) : ∀ g ∈ gs, IsGroup g := by
  induction spells with
  | last digits => exact List.forall_mem_singleton.2 digits
  | more digits _ _ ih => exact List.forall_mem_cons.2 ⟨digits, ih⟩

theorem Spells.ne_nil (spells : Spells separators cs gs) : gs ≠ [] := by
  cases spells <;> exact List.cons_ne_nil _ _

theorem Spells.eq_intercalate {c : Char} (spells : Spells [c] cs gs) : cs = [c].intercalate gs := by
  induction spells with
  | last => exact List.intercalate_singleton.symm
  | more _ between others ih =>
    rw [List.intercalate_cons_of_ne_nil others.ne_nil, ← ih, List.mem_singleton.1 between,
      List.append_assoc, List.singleton_append]

theorem spells_intercalate (c : Char) (filled : gs ≠ []) (groups : ∀ g ∈ gs, IsGroup g) :
    Spells [c] ([c].intercalate gs) gs := by
  induction gs with
  | nil => exact (filled rfl).elim
  | cons g rest ih =>
    obtain ⟨digits, others⟩ := List.forall_mem_cons.1 groups
    rcases eq_or_ne rest [] with rfl | more
    · rw [List.intercalate_singleton]
      exact .last digits
    · rw [List.intercalate_cons_of_ne_nil more, List.append_assoc, List.singleton_append]
      exact .more digits (List.mem_singleton_self c) (ih more others)

theorem isVersionText_iff {t : String} : IsVersionText t ↔ ∃ gs, Spells ['.'] t.toList gs := by
  constructor
  · rintro ⟨gs, filled, groups, text⟩
    exact ⟨gs, text ▸ spells_intercalate '.' filled groups⟩
  · rintro ⟨gs, spells⟩
    exact ⟨gs, spells.ne_nil, spells.isGroup, spells.eq_intercalate⟩

theorem isVersion_iff : isVersion cs = true ↔ ∃ gs, Spells ['.'] cs gs := by
  simp only [isVersion, groups_eq_splitOn, List.all_eq_true, Bool.and_eq_true, Bool.not_eq_true',
    List.isEmpty_eq_false_iff]
  constructor
  · intro groups
    refine ⟨cs.splitOn '.', ?_⟩
    have spells := spells_intercalate '.' (List.splitOn_ne_nil '.' cs) groups
    rwa [List.intercalate_splitOn] at spells
  · rintro ⟨gs, spells⟩
    have apart : ∀ g ∈ gs, '.' ∉ g := fun g member inside =>
      ne_of_isDigit ((spells.isGroup g member).2 _ inside) (by decide) rfl
    rw [spells.eq_intercalate, List.splitOn_intercalate '.' apart spells.ne_nil]
    exact spells.isGroup

/-- Making points of underscores leaves the digits alone. -/
theorem map_points_eq_iff {g cs : List Char} (digits : ∀ c ∈ g, c.isDigit = true) :
    (cs.map fun d => if d = '_' then '.' else d) = g ↔ cs = g := by
  induction g generalizing cs with
  | nil => rw [List.map_eq_nil_iff]
  | cons d g ih =>
    obtain ⟨digit, others⟩ := List.forall_mem_cons.1 digits
    cases cs with
    | nil => simp only [List.map_nil, List.nil_eq, reduceCtorEq]
    | cons c cs =>
      have first : (if c = '_' then '.' else c) = d ↔ c = d := by
        split
        · next underscore =>
          subst underscore
          exact iff_of_false (ne_of_isDigit digit (by decide)).symm
            (ne_of_isDigit digit (by decide)).symm
        · exact Iff.rfl
      rw [List.map_cons, List.cons.injEq, List.cons.injEq, first, ih others]

theorem spells_points_iff :
    Spells ['.'] (cs.map fun d => if d = '_' then '.' else d) gs ↔ Spells ['.', '_'] cs gs := by
  constructor
  · intro spells
    generalize points : (cs.map fun d => if d = '_' then '.' else d) = ds at spells
    induction spells generalizing cs with
    | last digits =>
      rw [(map_points_eq_iff digits.2).1 points]
      exact .last digits
    | more digits between _ ih =>
      obtain ⟨g, rest, rfl, group, pointed⟩ := List.map_eq_append_iff.1 points
      obtain ⟨c, cs, rfl, separator, others⟩ := List.map_eq_cons_iff.1 pointed
      rw [(map_points_eq_iff digits.2).1 group]
      refine .more digits ?_ (ih others)
      rw [← separator, List.mem_singleton] at between
      split at between
      · next underscore => simp only [underscore, List.mem_cons, or_true, true_or]
      · simp only [between, List.mem_cons, true_or]
  · intro spells
    induction spells with
    | last digits =>
      rw [(map_points_eq_iff digits.2).2 rfl]
      exact .last digits
    | more digits between _ ih =>
      rw [List.map_append, List.map_cons, (map_points_eq_iff digits.2).2 rfl]
      refine .more digits ?_ ih
      simp only [List.mem_cons, List.not_mem_nil, or_false] at between ⊢
      rcases between with rfl | rfl <;> rfl

theorem Spells.solid (spells : Spells separators cs gs)
    (solid : ∀ c ∈ separators, Text.isBlank c = false) : ∀ c ∈ cs, Text.isBlank c = false := by
  induction spells with
  | last digits => exact fun c member => not_isBlank_of_isDigit (digits.2 c member)
  | more digits between _ ih =>
    intro c member
    rcases List.mem_append.1 member with group | rest
    · exact not_isBlank_of_isDigit (digits.2 c group)
    · rcases List.mem_cons.1 rest with rfl | others
      · exact solid _ between
      · exact ih c others

/-- A text of groups begins with a digit. -/
theorem Spells.head (spells : Spells separators cs gs) :
    ∃ c rest, cs = c :: rest ∧ c.isDigit = true := by
  have group : ∀ g, IsGroup g → ∃ c rest, g = c :: rest ∧ c.isDigit = true := by
    rintro (_ | ⟨c, rest⟩) ⟨filled, digits⟩
    · exact (filled rfl).elim
    · exact ⟨c, rest, rfl, digits c List.mem_cons_self⟩
  cases spells with
  | last digits => exact group _ digits
  | more digits _ _ =>
    obtain ⟨c, rest, rfl, digit⟩ := group _ digits
    exact ⟨c, _, rfl, digit⟩

end Spelling

section Asking

variable {t w : String}

theorem asksFor_iff : AsksFor t w ↔
    isVersion (normalize t.toList) = true ∧ w = String.ofList (normalize t.toList) := by
  constructor
  · rintro (version | ⟨mark, written⟩)
    · obtain ⟨gs, spells⟩ := isVersionText_iff.1 version
      obtain ⟨c, rest, text, digit⟩ := spells.head
      have same : normalize t.toList = t.toList := by
        rw [text, normalize, if_neg]
        rintro (rfl | rfl) <;> revert digit <;> decide
      rw [same, String.ofList_toList]
      exact ⟨isVersion_iff.2 ⟨gs, spells⟩, rfl⟩
    · have points := spells_points_iff.2 written
      rw [String.toList_ofList, normalize, if_pos mark, points.eq_intercalate]
      exact ⟨isVersion_iff.2 ⟨_, points.eq_intercalate ▸ points⟩, rfl⟩
  · rintro ⟨version, rfl⟩
    obtain ⟨gs, spells⟩ := isVersion_iff.1 version
    cases text : t.toList with
    | nil =>
      rw [text] at spells
      obtain ⟨_, _, empty, _⟩ := spells.head
      cases empty
    | cons v cs =>
      rw [text, normalize] at spells
      rw [normalize]
      split
      · next mark =>
        rw [if_pos mark] at spells
        rw [spells.eq_intercalate, ← String.ofList_toList (s := t), text]
        exact .marked mark (spells_points_iff.1 spells)
      · next plain =>
        rw [if_neg plain, ← text] at spells
        rw [← text, String.ofList_toList]
        exact .plain (isVersionText_iff.2 ⟨gs, spells⟩)

/-- No version is asked for by the word `default`. -/
theorem AsksFor.not_isDefaultWord (asks : AsksFor t w) : ¬ IsDefaultWord t := by
  have begins : ∀ {c rest}, t.toList = c :: rest → IsDefaultWord t → c = 'd' ∨ c = 'D' := by
    intro c rest text word
    rw [IsDefaultWord, text] at word
    cases word with
    | cons first _ => exact first
  intro word
  cases asks with
  | plain version =>
    obtain ⟨_, spells⟩ := isVersionText_iff.1 version
    obtain ⟨c, _, text, digit⟩ := spells.head
    rcases begins text word with rfl | rfl <;> revert digit <;> decide
  | marked mark _ =>
    rcases begins String.toList_ofList word with rfl | rfl <;> revert mark <;> decide

theorem ofTarget_of_isDefaultWord (word : IsDefaultWord (Text.trim t)) : ofTarget t = .ok none := by
  rw [← isDefault_iff, Text.trim, String.toList_ofList] at word
  simp only [ofTarget, word, if_true]

theorem ofTarget_of_asksFor (asks : AsksFor (Text.trim t) w) : ofTarget t = .ok (some w) := by
  have other := asks.not_isDefaultWord
  obtain ⟨version, rfl⟩ := asksFor_iff.1 asks
  rw [← isDefault_iff] at other
  rw [Text.trim, String.toList_ofList] at *
  simp only [ofTarget, other, version, if_true, if_false, Bool.false_eq_true]

theorem ofTarget_of_neither (other : ¬ IsDefaultWord (Text.trim t))
    (none : ∀ w, ¬ AsksFor (Text.trim t) w) :
    ofTarget t = .error (.invalidValue .apiVersion "value" t) := by
  rw [← isDefault_iff] at other
  have invalid : ¬ isVersion (normalize (Text.trim t).toList) = true := fun version =>
    none _ (asksFor_iff.2 ⟨version, rfl⟩)
  rw [Text.trim, String.toList_ofList] at *
  simp only [ofTarget, other, invalid, if_false, Bool.false_eq_true]

theorem AsksFor.isVersionText (asks : AsksFor t w) : IsVersionText w := by
  cases asks with
  | plain version => exact version
  | marked _ written =>
    rw [isVersionText_iff, String.toList_ofList]
    exact ⟨_, spells_intercalate '.' written.ne_nil written.isGroup⟩

/-- A version asks for itself. -/
theorem ofTarget_of_isVersionText (version : IsVersionText w) : ofTarget w = .ok (some w) := by
  obtain ⟨_, spells⟩ := isVersionText_iff.1 version
  refine ofTarget_of_asksFor ?_
  rw [Text.trim_eq_self (spells.solid (List.forall_mem_singleton.2 rfl))]
  exact .plain version

end Asking

/-- A target asks for the default, for a version, or it is not valid, as it is written. A version that is
understood has the one form of versions, and asks for itself. -/
theorem ofTarget_grammar (t : String) :
    (ofTarget t = .ok none ↔ IsDefaultWord (Text.trim t)) ∧
    (∀ w, ofTarget t = .ok (some w) ↔ AsksFor (Text.trim t) w) ∧
    (∀ e, ofTarget t = .error e ↔
      ¬ IsDefaultWord (Text.trim t) ∧ (∀ w, ¬ AsksFor (Text.trim t) w) ∧
        e = .invalidValue .apiVersion "value" t) ∧
    ∀ w, ofTarget t = .ok (some w) → IsVersionText w ∧ ofTarget w = .ok (some w) := by
  have canonical : ∀ w, AsksFor (Text.trim t) w → IsVersionText w ∧ ofTarget w = .ok (some w) :=
    fun w asks => ⟨asks.isVersionText, ofTarget_of_isVersionText asks.isVersionText⟩
  by_cases word : IsDefaultWord (Text.trim t)
  · have unasked : ∀ w, ¬ AsksFor (Text.trim t) w := fun w asks => asks.not_isDefaultWord word
    simp only [ofTarget_of_isDefaultWord word, word, unasked, Except.ok.injEq, reduceCtorEq,
      not_true_eq_false, false_and, false_implies, implies_true, and_self]
  by_cases asked : ∃ w, AsksFor (Text.trim t) w
  · obtain ⟨w, asks⟩ := asked
    have run := ofTarget_of_asksFor asks
    have only : ∀ {w'}, AsksFor (Text.trim t) w' → w' = w := fun asks' =>
      Option.some.inj (Except.ok.inj ((ofTarget_of_asksFor asks').symm.trans run))
    rw [run]
    refine ⟨iff_of_false nofun word, fun w' => ⟨?_, fun asks' => by rw [only asks']⟩,
      fun e => iff_of_false nofun fun no => no.2.1 w asks, ?_⟩
    · rintro ⟨rfl⟩
      exact asks
    · rintro w' ⟨rfl⟩
      exact canonical w asks
  · have unasked := not_exists.1 asked
    have run := ofTarget_of_neither word unasked
    rw [run]
    refine ⟨iff_of_false nofun word, fun w => iff_of_false nofun (unasked w), fun e => ?_, nofun⟩
    exact ⟨fun same => ⟨word, unasked, (Except.error.inj same).symm⟩, fun other => by rw [other.2.2]⟩

theorem ofTarget_grammar_marked :
    ofTarget " V1_20.4\n" = .ok (some "1.20.4") ∧ IsVersionText "1.20.4" ∧
      ofTarget "1.20.4" = .ok (some "1.20.4") := by
  have run : ofTarget " V1_20.4\n" = .ok (some "1.20.4") := by decide
  exact ⟨run, (ofTarget_grammar " V1_20.4\n").2.2.2 "1.20.4" run⟩

example : [ofTarget "DeFault", ofTarget "v1__2", ofTarget "1_2", ofTarget "v", ofTarget "vv1"] =
    [.ok none, .error (.invalidValue .apiVersion "value" "v1__2"),
      .error (.invalidValue .apiVersion "value" "1_2"),
      .error (.invalidValue .apiVersion "value" "v"),
      .error (.invalidValue .apiVersion "value" "vv1")] := by
  decide

end ApiVersion

end PluginDescriptor
