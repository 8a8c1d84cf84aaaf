import Mathlib.Data.List.Forall2
import PluginDescriptor.Json.Basic
import PluginDescriptor.Json.Reader

namespace PluginDescriptor.Json.Reader

variable {α β σ : Type}

/-- In front of whatever follows, the reader takes this text and gives this value. -/
def Takes (reader : Reader α) (text : List Char) (a : α) : Prop :=
  ∀ rest, reader (text ++ rest) = .ok (a, rest)

theorem bind_of_ok {x : Reader α} {f : α → Reader β} {cs rest : List Char} {a : α}
    (run : x cs = .ok (a, rest)) : (x >>= f) cs = f a rest := by
  change (x cs >>= fun p => f p.1 p.2) = _
  rw [run]
  rfl

theorem takes_pure (a : α) : Takes (pure a) [] a := fun _ => rfl

theorem Takes.bind {x : Reader α} {f : α → Reader β} {t u : List Char} {a : α} {b : β}
    (first : Takes x t a) (next : Takes (f a) u b) : Takes (x >>= f) (t ++ u) b := by
  intro rest
  rw [List.append_assoc, bind_of_ok (first (u ++ rest))]
  exact next rest

/-- What is left to do needs no more text. -/
theorem Takes.finish {x : Reader α} {f : α → Reader β} {t : List Char} {a : α} {b : β}
    (takes : Takes x t a) (done : f a = pure b) : Takes (x >>= f) t b := by
  intro rest
  rw [bind_of_ok (takes rest), done]
  rfl

theorem Takes.map {x : Reader α} {t : List Char} {a : α} (takes : Takes x t a) (f : α → β) :
    Takes (f <$> x) t (f a) := by
  rw [← bind_pure_comp]
  exact takes.finish rfl

/-- A text that is taken is a text that holds the value and nothing after it. -/
theorem Takes.run {x : Reader α} {t : List Char} {a : α} (takes : Takes x t a) :
    x.run (String.ofList t) = .ok a := by
  have read := takes []
  rw [List.append_nil] at read
  unfold Reader.run
  rw [String.toList_ofList, read]
  rfl

theorem peek_cons {c : Char} (visible : isSpace c = false) (cs : List Char) :
    peek (c :: cs) = .ok (c, c :: cs) := by
  unfold peek
  rw [List.dropWhile_cons_of_neg (by simp [visible])]

theorem takes_peek {f : Char → Reader α} {c : Char} {t : List Char} {a : α}
    (visible : isSpace c = false) (next : Takes (f c) (c :: t) a) :
    Takes (peek >>= f) (c :: t) a := by
  intro rest
  rw [List.cons_append, bind_of_ok (peek_cons visible _)]
  exact next rest

theorem takes_skip {f : Unit → Reader α} {c : Char} {t : List Char} {a : α}
    (next : Takes (f ()) t a) : Takes (skip >>= f) (c :: t) a := by
  intro rest
  have dropped : skip (c :: (t ++ rest)) = .ok ((), t ++ rest) := rfl
  rw [List.cons_append, bind_of_ok dropped]
  exact next rest

/-- A token that is looked for is taken. -/
theorem takes_token {c : Char} {f : Unit → Reader α} {other : Char → Reader α} {t : List Char}
    {a : α} (visible : isSpace c = false) (next : Takes (f ()) t a) :
    Takes (peek >>= fun d => if d = c then skip >>= f else other d) (c :: t) a := by
  refine takes_peek visible ?_
  rw [if_pos rfl]
  exact takes_skip next

theorem takes_deeper {f : Nat → Reader α} {depth : Nat} {t : List Char} {a : α}
    (next : Takes (f depth) t a) : Takes (deeper (depth + 1) >>= f) t a := by
  intro rest
  have opened : deeper (depth + 1) (t ++ rest) = .ok (depth, t ++ rest) := rfl
  rw [bind_of_ok opened]
  exact next rest

/-- A reader that may find something else first opens an object at its brace. -/
theorem takes_braced {c : Char} {f : Nat → Reader α} {first other : Char → Reader α} {depth : Nat}
    {t : List Char} {a : α} (apart : '\x7b' ≠ c) (next : Takes (f depth) t a) :
    Takes
      (peek >>= fun d =>
        if d = c then first d
        else if d = '\x7b' then deeper (depth + 1) >>= fun e => skip >>= fun _ => f e
        else other d)
      ('\x7b' :: t) a := by
  refine takes_peek rfl ?_
  rw [if_neg apart, if_pos rfl]
  exact takes_deeper (takes_skip next)

theorem takes_expect {c : Char} (visible : isSpace c = false) : Takes (expect c) [c] () := by
  refine takes_peek visible ?_
  rw [if_pos rfl]
  exact fun _ => rfl

theorem fourHex?_hexPair {n : Nat} (below : n < 32) :
    fourHex? '0' '0' (Nat.digitChar (n / 16)) (Nat.digitChar (n % 16)) = some n := by
  revert n
  decide

/-- An escaped character is read as the character. -/
theorem stringBody_escapeChar (c : Char) (rest : List Char) :
    stringBody none (escapeChar c ++ rest) = consChar c (stringBody none rest) := by
  unfold escapeChar
  split
  · next same => subst same; rfl
  split
  · next same => subst same; rfl
  split
  · next same => subst same; rfl
  split
  · next same => subst same; rfl
  split
  · next same => subst same; rfl
  split
  · next same => subst same; rfl
  split
  · next same => subst same; rfl
  split
  · next control =>
    have hex := fourHex?_hexPair control
    have low : isLowSurrogate c.toNat = false := by simp [isLowSurrogate]; omega
    have high : isHighSurrogate c.toNat = false := by simp [isHighSurrogate]; omega
    simp [hexPair, stringBody, hex, low, high]
  · next shown => simp [stringBody, shown]

theorem stringBody_escaped (s rest : List Char) :
    stringBody none (s.flatMap escapeChar ++ '"' :: rest) = .ok (s, rest) := by
  induction s with
  | nil => rfl
  | cons c r ih =>
    rw [List.flatMap_cons, List.append_assoc, stringBody_escapeChar, ih]
    rfl

theorem takes_stringRest (s : String) :
    Takes stringRest (s.toList.flatMap escapeChar ++ ['"']) s := by
  intro rest
  have body := stringBody_escaped s.toList rest
  rw [List.append_assoc, List.singleton_append, stringRest, body]
  simp

theorem takes_string (expected : String) (s : String) :
    Takes (string expected) (stringChars s) s := by
  exact takes_token rfl (takes_stringRest s)

theorem takes_choice {options : List (String × α)} {name : String} {a : α}
    (known : options.lookup name = some a) (depth : Nat) :
    Takes (choice depth options) (stringChars name) a := by
  have picked : pick options name = pure a := by rw [pick, known]
  exact takes_token rfl ((takes_stringRest name).finish picked)

theorem commas_cons (a : List Char) (r : List (List Char)) :
    commas (a :: r) = a ++ r.flatMap (',' :: ·) := by
  induction r generalizing a with
  | nil => simp [commas]
  | cons b r ih => simp [commas, ih]

/-- The text begins with what stands neither for white space nor for the end of an array. -/
def Opens (t : List Char) : Prop := ∃ c r, t = c :: r ∧ isSpace c = false ∧ c ≠ ']'

/-- Every part that follows a comma takes a character, so the rest of a text is long enough to
bound how many follow. -/
theorem length_le_flatMap_cons (c : Char) (texts : List (List Char)) :
    texts.length ≤ (texts.flatMap (c :: ·)).length := by
  induction texts with
  | nil => exact Nat.le_refl _
  | cons t r ih =>
    rw [List.flatMap_cons, List.length_append, List.length_cons, List.length_cons]
    omega

theorem bind_get {f : List Char → Reader β} (cs : List Char) : (get >>= f) cs = f cs cs := rfl

section Items

variable {item : Reader α}

theorem takes_moreItems {texts : List (List Char)} {values : List α}
    (each : List.Forall₂ (Takes item) texts values) {fuel : Nat} (enough : texts.length < fuel) :
    Takes (moreItems item fuel) (texts.flatMap (',' :: ·) ++ [']']) values := by
  induction each generalizing fuel with
  | nil =>
    obtain ⟨fuel, rfl⟩ := Nat.exists_eq_succ_of_ne_zero (Nat.ne_of_gt enough)
    exact takes_token rfl (takes_pure [])
  | @cons t a texts values first _ ih =>
    obtain ⟨fuel, rfl⟩ := Nat.exists_eq_succ_of_ne_zero (Nat.ne_zero_of_lt enough)
    rw [List.flatMap_cons, List.cons_append, List.cons_append, List.append_assoc]
    refine takes_peek rfl ?_
    rw [if_neg (by decide), if_pos rfl]
    exact takes_skip (first.bind ((ih (Nat.lt_of_succ_lt_succ enough)).finish rfl))

/-- An array is read item by item. -/
theorem takes_items {texts : List (List Char)} {values : List α}
    (each : List.Forall₂ (Takes item) texts values) (opens : ∀ t ∈ texts, Opens t) :
    Takes (items item) (commas texts ++ [']']) values := by
  cases each with
  | nil => exact takes_token rfl (takes_pure [])
  | @cons t a texts values first others =>
    obtain ⟨c, r, rfl, visible, inside⟩ := opens t (List.mem_cons_self ..)
    rw [commas_cons, List.cons_append, List.cons_append]
    refine takes_peek visible ?_
    rw [if_neg inside, ← List.cons_append, ← List.cons_append, List.append_assoc]
    refine first.bind ?_
    intro rest
    have enough : texts.length < (texts.flatMap (',' :: ·) ++ [']'] ++ rest).length + 1 := by
      have most := length_le_flatMap_cons ',' texts
      rw [List.length_append, List.length_append]
      omega
    rw [bind_get, bind_of_ok (takes_moreItems others enough rest)]
    rfl

end Items

section Members

variable {value : σ → String → Except Fault (Reader σ)}

/-- Member by member, the reader of an object goes from one accumulated value to another. -/
inductive Leads (value : σ → String → Except Fault (Reader σ)) :
    σ → List (String × List Char) → σ → Prop where
  | nil (acc : σ) : Leads value acc [] acc
  | cons {acc next last : σ} {key : String} {text : List Char} {r : List (String × List Char)}
      {reader : Reader σ} (known : value acc key = .ok reader) (takes : Takes reader text next)
      (others : Leads value next r last) : Leads value acc ((key, text) :: r) last

/-- The text of a member of an object. -/
def memberText (m : String × List Char) : List Char := stringChars m.1 ++ ':' :: m.2

theorem takes_memberOf {acc next : σ} {key : String} {text : List Char} {reader : Reader σ}
    (known : value acc key = .ok reader) (takes : Takes reader text next) :
    Takes (memberOf value acc) (memberText (key, text)) next := by
  refine takes_token rfl ((takes_stringRest key).bind ?_)
  rw [known]
  exact (takes_expect rfl).bind takes

theorem takes_moreMembers {acc last : σ} {list : List (String × List Char)}
    (leads : Leads value acc list last) {fuel : Nat} (enough : list.length < fuel) :
    Takes (moreMembers value fuel acc) ((list.map memberText).flatMap (',' :: ·) ++ ['\x7d'])
      last := by
  induction leads generalizing fuel with
  | nil acc =>
    obtain ⟨fuel, rfl⟩ := Nat.exists_eq_succ_of_ne_zero (Nat.ne_of_gt enough)
    exact takes_token rfl (takes_pure acc)
  | cons known takes _ ih =>
    obtain ⟨fuel, rfl⟩ := Nat.exists_eq_succ_of_ne_zero (Nat.ne_zero_of_lt enough)
    rw [List.map_cons, List.flatMap_cons, List.cons_append, List.cons_append, List.append_assoc]
    refine takes_peek rfl ?_
    rw [if_neg (by decide), if_pos rfl]
    refine takes_skip ((takes_memberOf known takes).bind ?_)
    exact ih (Nat.lt_of_succ_lt_succ enough)

/-- An object is read member by member. -/
theorem takes_members {start last : σ} {list : List (String × List Char)}
    (leads : Leads value start list last) :
    Takes (members value start) (commas (list.map memberText) ++ ['\x7d']) last := by
  cases leads with
  | nil => exact takes_token rfl (takes_pure start)
  | @cons _ _ _ key text r _ known takes others =>
    rw [List.map_cons, commas_cons, List.append_assoc]
    refine takes_peek rfl ?_
    rw [if_neg (by decide)]
    refine (takes_memberOf known takes).bind ?_
    intro rest
    have enough : r.length <
        ((r.map memberText).flatMap (',' :: ·) ++ ['\x7d'] ++ rest).length + 1 := by
      have most := length_le_flatMap_cons ',' (r.map memberText)
      rw [List.length_map] at most
      rw [List.length_append, List.length_append]
      omega
    rw [bind_get]
    exact takes_moreMembers others enough rest

end Members
end PluginDescriptor.Json.Reader
