import PluginDescriptor.Artifact
import PluginDescriptor.Proofs.Yaml.Scalar

namespace PluginDescriptor.Yaml

/-- The beginnings of an entry: no indentation, and no mark of an item. -/
def OpensEntry : List Char → Prop
  | [] => False
  | c :: r => c ≠ ' ' ∧ isBreak c = false ∧ (c = '-' → startsSeparated r = false)

/-- What comes after the lines at some depth: nothing, or an entry at a lesser depth. -/
def Follows (n : Nat) (r : List Char) : Prop :=
  r = [] ∨ ∃ k e, r = spaces k ++ e ∧ k < n ∧ OpensEntry e

theorem Follows.mono {m n : Nat} {r : List Char} (follows : Follows m r) (le : m ≤ n) :
    Follows n r := by
  rcases follows with rfl | ⟨k, e, rfl, less, opens⟩
  · exact Or.inl rfl
  · exact Or.inr ⟨k, e, rfl, by omega, opens⟩

theorem Follows.below {n : Nat} {r : List Char} (follows : Follows n r) : Below n r := by
  rcases follows with rfl | ⟨k, e, rfl, less, opens⟩
  · exact Or.inl rfl
  · cases e with
    | nil => exact opens.elim
    | cons c s => exact Or.inr ⟨k, c, s, rfl, less, opens.1, opens.2.1⟩

theorem below_spaces {k n : Nat} {c : Char} (less : k < n) (other : c ≠ ' ')
    (inside : isBreak c = false) (s : List Char) : Below n (spaces k ++ c :: s) :=
  Or.inr ⟨k, c, s, rfl, less, other, inside⟩

theorem OpensScalar.opensEntry {l : List Char} (opens : OpensScalar l) : OpensEntry l := by
  cases l with
  | nil => exact opens
  | cons c r =>
    obtain ⟨space, unbroken, _, _, special⟩ := opens
    exact ⟨space, unbroken, fun minus => special (Or.inl minus)⟩

theorem not_opensScalar_question (r : List Char) : ¬ OpensScalar ('?' :: ' ' :: r) := by
  intro opens
  have alone := opens.2.2.2.2 (Or.inr (Or.inl rfl))
  cases alone

/-- The items after the first, each on a line of its own. -/
def moreItems (m : Nat) (items : List String) : List Char :=
  if items.isEmpty then [] else spaces m ++ itemLines m items

theorem moreItems_cons (m : Nat) (s : String) (items : List String) :
    moreItems m (s :: items) = spaces m ++ itemLines m (s :: items) := rfl

theorem itemLines_cons (m : Nat) (s : String) (items : List String) :
    itemLines m (s :: items) =
      '-' :: ' ' :: (scalarLine (m + 2) s.toList ++ moreItems m items) := by
  cases items <;> simp [itemLines, moreItems]

/-- What comes after an item of a list at this depth is no further item. -/
theorem Follows.ne_moreItems {m : Nat} {x : String} {items : List String} {r r' : List Char}
    (follows : Follows (m + 1) r) : r ≠ moreItems m (x :: items) ++ r' := by
  rw [moreItems_cons, itemLines_cons, List.append_assoc]
  rintro rfl
  rcases follows with none | ⟨k, f, same, less, opens⟩
  · simp at none
  · cases f with
    | nil => exact opens
    | cons d u =>
      obtain ⟨_, rfl, rfl⟩ := spaces_append_inj (by decide) opens.1 same
      have alone := opens.2.2 rfl
      cases alone

theorem below_moreItems {m : Nat} {r : List Char} (items : List String)
    (follows : Follows (m + 1) r) : Below (m + 2) (moreItems m items ++ r) := by
  cases items with
  | nil => exact (follows.mono (by omega)).below
  | cons s items =>
    rw [moreItems_cons, itemLines_cons, List.append_assoc]
    exact below_spaces (by omega) (by decide) (by decide) _

theorem itemLines_cancel {m : Nat} {items items' : List String} {r r' : List Char}
    (filled : items ≠ []) (filled' : items' ≠ []) (follows : Follows (m + 1) r)
    (follows' : Follows (m + 1) r') (same : itemLines m items ++ r = itemLines m items' ++ r') :
    items = items' ∧ r = r' := by
  induction items generalizing items' with
  | nil => exact (filled rfl).elim
  | cons s items ih => cases items' with
    | nil => exact (filled' rfl).elim
    | cons t items' =>
      rw [itemLines_cons, itemLines_cons] at same
      simp only [List.cons_append, List.append_assoc, List.cons.injEq, true_and] at same
      obtain ⟨text, rest⟩ := scalarLine_cancel (below_moreItems items follows)
        (below_moreItems items' follows') same
      rw [String.toList_inj] at text
      subst text
      cases items with
      | nil => cases items' with
        | nil => exact ⟨rfl, rest⟩
        | cons t items' => exact (follows.ne_moreItems rest).elim
      | cons u items => cases items' with
        | nil => exact (follows'.ne_moreItems rest.symm).elim
        | cons t items' =>
          rw [moreItems_cons, moreItems_cons, List.append_assoc, List.append_assoc] at rest
          obtain ⟨others, after⟩ := ih (by simp) (by simp) (List.append_cancel_left rest)
          exact ⟨by rw [others], after⟩

theorem isSimpleKey_unbroken {k : String} (simple : isSimpleKey k = true) :
    k.toList.any isBreak = false := by
  simp only [isSimpleKey, Bool.and_eq_true, Bool.not_eq_true'] at simple
  exact simple.1

/-- A truth value. -/
def flagText (b : Bool) : List Char := if b then "true".toList else "false".toList

/-- What follows the blank after a colon, when the value starts on the line of the colon. -/
def body (m : Nat) : Value → List Char
  | .str s => scalarLine (m + 2) s.toList
  | .bool b => flagText b ++ ['\n']
  | .list [] => ['[', ']', '\n']
  | .list items => itemLines (m + 2) items
  | .map [] => ['\x7b', '\x7d', '\n']
  | .map entries => entryLines (m + 2) entries

theorem complexValue_eq (m : Nat) (v : Value) : complexValue m v = ' ' :: body m v := by
  rcases v with s | b | (_ | ⟨x, xs⟩) | (_ | ⟨e, es⟩)
  · rw [complexValue, body]
  · cases b <;> simp [complexValue, body, flagText]
  · simp [complexValue, body]
  · rw [complexValue, body] <;> simp
  · rw [complexValue, body]
  · rw [complexValue, body] <;> simp

/-- The forms that values take in a block. -/
inductive Form where
  | text
  | flag
  | noItems
  | items
  | noEntries
  | entries
  deriving DecidableEq

def form : Value → Form
  | .str _ => .text
  | .bool _ => .flag
  | .list [] => .noItems
  | .list _ => .items
  | .map [] => .noEntries
  | .map _ => .entries

theorem simpleValue_cases (m : Nat) (v : Value) :
    simpleValue m v = ' ' :: body m v ∨
      (∃ items, v = .list items ∧ items ≠ [] ∧
        simpleValue m v = '\n' :: (spaces m ++ itemLines m items)) ∨
      ∃ es, v = .map es ∧ es ≠ [] ∧
        simpleValue m v = '\n' :: (spaces (m + 2) ++ entryLines (m + 2) es) := by
  rcases v with s | b | (_ | ⟨x, xs⟩) | (_ | ⟨e, es⟩)
  · exact Or.inl (by rw [simpleValue, body])
  · exact Or.inl (by cases b <;> simp [simpleValue, body, flagText])
  · exact Or.inl (by simp [simpleValue, body])
  · exact Or.inr (Or.inl ⟨_, rfl, by simp, by rw [simpleValue] <;> simp⟩)
  · exact Or.inl (by rw [simpleValue, body])
  · exact Or.inr (Or.inr ⟨_, rfl, by simp, by rw [simpleValue] <;> simp⟩)

/-- The colon after a key ends the key. -/
theorem endsScalar_colon (m : Nat) (v : Value) (r : List Char) :
    EndsScalar (':' :: simpleValue m v ++ r) := by
  right
  rcases simpleValue_cases m v with text | ⟨_, _, _, text⟩ | ⟨_, _, _, text⟩ <;> rw [text]
  · exact ⟨' ', _, rfl, by decide⟩
  · exact ⟨'\n', _, rfl, by decide⟩
  · exact ⟨'\n', _, rfl, by decide⟩

/-- The beginning of an entry: a key with its colon, or the mark of a long key. -/
theorem entryLine_begin (m : Nat) (k : String) (v : Value) (r : List Char) :
    (∃ u, EndsScalar (':' :: u) ∧ isSimpleKey k = true ∧
        entryLine m k v ++ r = scalar (m + 2) k.toList ++ ':' :: u) ∨
      ∃ u, entryLine m k v ++ r = '?' :: ' ' :: u := by
  unfold entryLine
  split
  · next simple =>
    refine Or.inl ⟨_, endsScalar_colon m v r, simple, ?_⟩
    rw [List.append_assoc]
    rfl
  · exact Or.inr ⟨_, rfl⟩

theorem opensEntry_entryLine (m : Nat) (k : String) (v : Value) (r : List Char) :
    OpensEntry (entryLine m k v ++ r) := by
  rcases entryLine_begin m k v r with ⟨u, _, _, text⟩ | ⟨u, text⟩
  · rw [text]
    exact (opensScalar_scalar ..).opensEntry
  · rw [text]
    exact ⟨by decide, by decide, nofun⟩

/-- The entries after the first, each on a line of its own. -/
def moreEntries (m : Nat) (es : List (String × Value)) : List Char :=
  if es.isEmpty then [] else spaces m ++ entryLines m es

theorem moreEntries_cons (m : Nat) (e : String × Value) (es : List (String × Value)) :
    moreEntries m (e :: es) = spaces m ++ entryLines m (e :: es) := rfl

theorem entryLines_cons (m : Nat) (k : String) (v : Value) (es : List (String × Value)) :
    entryLines m ((k, v) :: es) = entryLine m k v ++ moreEntries m es := by
  rw [entryLines]
  rfl

theorem opensEntry_entryLines {m : Nat} {es : List (String × Value)} (filled : es ≠ [])
    (r : List Char) : OpensEntry (entryLines m es ++ r) := by
  cases es with
  | nil => exact (filled rfl).elim
  | cons e es =>
    rw [entryLines_cons, List.append_assoc]
    exact opensEntry_entryLine ..

/-- What comes after an entry of a map at this depth is no further entry. -/
theorem Follows.ne_moreEntries {m : Nat} {e : String × Value} {es : List (String × Value)}
    {r r' : List Char} (follows : Follows m r) : r ≠ moreEntries m (e :: es) ++ r' := by
  have opens := opensEntry_entryLines (m := m) (List.cons_ne_nil e es) r'
  rw [moreEntries_cons, List.append_assoc]
  rintro rfl
  rcases follows with none | ⟨k, f, same, less, opens'⟩
  · rw [List.append_eq_nil_iff] at none
    rw [none.2] at opens
    exact opens
  · cases f with
    | nil => exact opens'
    | cons d s => exact spaces_append_ne less opens'.1 same

theorem follows_moreEntries {m : Nat} {r : List Char} (es : List (String × Value))
    (follows : Follows m r) : Follows (m + 1) (moreEntries m es ++ r) := by
  unfold moreEntries
  cases es with
  | nil => exact follows.mono (by omega)
  | cons e es =>
    refine Or.inr ⟨m, entryLines m (e :: es) ++ r, ?_, by omega, opensEntry_entryLines (by simp) r⟩
    simp

/-- A value is legible when it and what follows it come back from its lines, under a key of either
kind. -/
def Legible (v : Value) : Prop :=
  ∀ ⦃m : Nat⦄ ⦃w : Value⦄ ⦃r r' : List Char⦄, Follows (m + 1) r → Follows (m + 1) r' →
    (simpleValue m v ++ r = simpleValue m w ++ r' → v = w ∧ r = r') ∧
      (complexValue m v ++ r = complexValue m w ++ r' → v = w ∧ r = r')

theorem entryLine_cancel {m : Nat} {k l : String} {v w : Value} {r r' : List Char}
    (legible : Legible v) (follows : Follows (m + 1) r) (follows' : Follows (m + 1) r')
    (same : entryLine m k v ++ r = entryLine m l w ++ r') : k = l ∧ v = w ∧ r = r' := by
  unfold entryLine at same
  split at same
  · next simple =>
    split at same
    · rw [List.append_assoc, List.append_assoc] at same
      obtain ⟨text, rest⟩ := scalar_cancel (style_unbroken (isSimpleKey_unbroken simple))
        (endsScalar_colon m v r) (endsScalar_colon m w r') same
      exact ⟨String.toList_inj.1 text, (legible follows follows').1 (List.cons.inj rest).2⟩
    · rw [List.append_assoc] at same
      have opens := opensScalar_scalar (m + 2) k.toList (':' :: simpleValue m v ++ r)
      rw [same] at opens
      exact (not_opensScalar_question _ opens).elim
  · split at same
    · rw [List.append_assoc _ _ r'] at same
      have opens := opensScalar_scalar (m + 2) l.toList (':' :: simpleValue m w ++ r')
      rw [← same] at opens
      exact (not_opensScalar_question _ opens).elim
    · simp only [List.cons_append, List.append_assoc, List.cons.injEq, true_and] at same
      have below (u : List Char) : Below (m + 2) (spaces m ++ ':' :: u) :=
        below_spaces (by omega) (by decide) (by decide) u
      obtain ⟨text, rest⟩ := scalarLine_cancel (below _) (below _) same
      have value := (List.cons.inj (List.append_cancel_left rest)).2
      exact ⟨String.toList_inj.1 text, (legible follows follows').2 value⟩

theorem entryLines_cancel {m : Nat} {es es' : List (String × Value)} {r r' : List Char}
    (legible : ∀ e ∈ es, Legible e.2) (filled : es ≠ []) (filled' : es' ≠ []) (follows : Follows m r)
    (follows' : Follows m r') (same : entryLines m es ++ r = entryLines m es' ++ r') :
    es = es' ∧ r = r' := by
  induction es generalizing es' with
  | nil => exact (filled rfl).elim
  | cons e es ih => cases es' with
    | nil => exact (filled' rfl).elim
    | cons e' es' =>
      obtain ⟨k, v⟩ := e
      obtain ⟨l, w⟩ := e'
      rw [entryLines_cons, entryLines_cons, List.append_assoc, List.append_assoc] at same
      obtain ⟨rfl, rfl, rest⟩ := entryLine_cancel (legible (k, v) (List.mem_cons_self ..))
        (follows_moreEntries es follows) (follows_moreEntries es' follows') same
      cases es with
      | nil => cases es' with
        | nil => exact ⟨rfl, rest⟩
        | cons f es' => exact (follows.ne_moreEntries rest).elim
      | cons d es => cases es' with
        | nil => exact (follows'.ne_moreEntries rest.symm).elim
        | cons f es' =>
          rw [moreEntries_cons, moreEntries_cons, List.append_assoc, List.append_assoc] at rest
          obtain ⟨others, after⟩ := ih (fun e member => legible e (List.mem_cons_of_mem _ member))
            (by simp) (by simp) (List.append_cancel_left rest)
          exact ⟨by rw [others], after⟩

/-- The form that the first characters of a value show. A text, a truth value and the first entry of
a map may begin alike. -/
def readForm : List Char → Option Form
  | '[' :: _ => some .noItems
  | '\x7b' :: _ => some .noEntries
  | '-' :: ' ' :: _ => some .items
  | _ => none

theorem readForm_opensScalar {l : List Char} (opens : OpensScalar l) : readForm l = none := by
  unfold readForm
  split
  · exact (opens.2.2.1 rfl).elim
  · exact (opens.2.2.2.1 rfl).elim
  · have alone := opens.2.2.2.2 (Or.inl rfl)
    cases alone
  · rfl

/-- The form of a value as far as the first characters show it. -/
def Form.shown : Form → Option Form
  | .text => none
  | .flag => none
  | .entries => none
  | f => some f

theorem fitsPlain_flagText (b : Bool) : fitsPlain (flagText b) = true := by
  cases b <;> decide

theorem isUntaggedValue_flagText (b : Bool) : isUntaggedValue (flagText b) = true := by
  cases b <;> rfl

theorem readForm_entryLine (m : Nat) (k : String) (v : Value) (r : List Char) :
    readForm (entryLine m k v ++ r) = none := by
  rcases entryLine_begin m k v r with ⟨u, _, _, text⟩ | ⟨u, text⟩
  · rw [text]
    exact readForm_opensScalar (opensScalar_scalar ..)
  · rw [text]
    rfl

theorem readForm_body (m : Nat) (v : Value) (r : List Char) :
    readForm (body m v ++ r) = (form v).shown := by
  rcases v with s | b | (_ | ⟨x, xs⟩) | (_ | ⟨⟨k, u⟩, es⟩)
  · rw [body, scalarLine, List.append_assoc]
    exact readForm_opensScalar (opensScalar_scalar ..)
  · rw [body, List.append_assoc]
    exact readForm_opensScalar (opensScalar_plain (fitsPlain_flagText b) _)
  · rfl
  · rw [body, itemLines_cons]
    · rfl
    · simp
  · rfl
  · rw [body, entryLines_cons, List.append_assoc]
    · exact readForm_entryLine ..
    · simp

/-- A plain word does not pass for a text, which would be quoted. -/
theorem text_ne_flag {n : Nat} {s r r' : List Char} {b : Bool} :
    scalarLine n s ++ r ≠ flagText b ++ '\n' :: r' := by
  intro same
  rw [scalarLine, List.append_assoc] at same
  have plain : style s = .plain := by
    rw [← readStyle_scalar n s, same, readStyle_plain (fitsPlain_flagText b)]
  obtain ⟨tagged, fits⟩ := style_plain plain
  have inline : style s ≠ .literal := by rw [plain]; decide
  have bare : scalar n s = s := by simp [scalar, plain]
  rw [lineEnd_inline inline, bare] at same
  obtain ⟨rfl, _⟩ :=
    plain_cancel fits (fitsPlain_flagText b) (Or.inl ⟨r, rfl⟩) (Or.inl ⟨r', rfl⟩) same
  rw [isUntaggedValue_flagText] at tagged
  cases tagged

/-- A text does not pass for the key of an entry. -/
theorem text_ne_entry {n m : Nat} {s r r' : List Char} {k : String} {v : Value} :
    scalarLine n s ++ r ≠ entryLine m k v ++ r' := by
  intro same
  rw [scalarLine, List.append_assoc] at same
  rcases entryLine_begin m k v r' with ⟨u, ends, simple, text⟩ | ⟨u, text⟩
  · have unbroken := isSimpleKey_unbroken simple
    rw [text] at same
    have alike : style s = style k.toList := by
      rw [← readStyle_scalar n s, same, readStyle_scalar]
    have inline : style s ≠ .literal := by
      rw [alike]
      exact style_unbroken unbroken
    rw [lineEnd_inline inline, scalar_indent unbroken (m + 2) n] at same
    obtain ⟨_, rest⟩ := scalar_cancel inline (Or.inl ⟨r, rfl⟩) ends same
    cases rest
  · have opens := opensScalar_scalar n s (lineEnd s ++ r)
    rw [same, text] at opens
    exact not_opensScalar_question u opens

/-- Neither does a truth value. -/
theorem flag_ne_entry {m : Nat} {r r' : List Char} {b : Bool} {k : String} {v : Value} :
    flagText b ++ '\n' :: r ≠ entryLine m k v ++ r' := by
  intro same
  rcases entryLine_begin m k v r' with ⟨u, ends, _, text⟩ | ⟨u, text⟩
  · rw [text] at same
    have plain : style k.toList = .plain := by
      rw [← readStyle_scalar (m + 2) k.toList, ← same, readStyle_plain (fitsPlain_flagText b)]
    have bare : scalar (m + 2) k.toList = k.toList := by simp [scalar, plain]
    rw [bare] at same
    obtain ⟨_, rest⟩ :=
      plain_cancel (fitsPlain_flagText b) (style_plain plain).2 (Or.inl ⟨r, rfl⟩) ends same
    cases rest
  · have opens := opensScalar_plain (fitsPlain_flagText b) ('\n' :: r)
    rw [same, text] at opens
    exact not_opensScalar_question u opens

theorem form_shown_none {v : Value} (hidden : (form v).shown = none) :
    (∃ s, v = .str s) ∨ (∃ b, v = .bool b) ∨ ∃ k u es, v = .map ((k, u) :: es) := by
  rcases v with s | b | (_ | ⟨x, xs⟩) | (_ | ⟨⟨k, u⟩, es⟩)
  · exact Or.inl ⟨s, rfl⟩
  · exact Or.inr (Or.inl ⟨b, rfl⟩)
  · cases hidden
  · cases hidden
  · cases hidden
  · exact Or.inr (Or.inr ⟨k, u, es, rfl⟩)

theorem body_entries (m : Nat) (k : String) (v : Value) (es : List (String × Value))
    (r : List Char) : body m (.map ((k, v) :: es)) ++ r =
      entryLine (m + 2) k v ++ (moreEntries (m + 2) es ++ r) := by
  rw [body, entryLines_cons, List.append_assoc]
  simp

theorem body_flag (m : Nat) (b : Bool) (r : List Char) :
    body m (.bool b) ++ r = flagText b ++ '\n' :: r := by
  rw [body, List.append_assoc]
  rfl

/-- No value passes for one of another form. -/
theorem form_of_body {m : Nat} {v w : Value} {r r' : List Char}
    (same : body m v ++ r = body m w ++ r') : form v = form w := by
  have shown : (form v).shown = (form w).shown := by
    rw [← readForm_body m v r, same, readForm_body]
  cases hidden : (form v).shown with
  | some f =>
    rw [hidden] at shown
    cases formV : form v <;> cases formW : form w <;> simp_all [Form.shown]
  | none =>
    -- Only the end of the line tells a text, a truth value and a key from one another.
    have hidden' := shown.symm.trans hidden
    rcases form_shown_none hidden with ⟨s, rfl⟩ | ⟨b, rfl⟩ | ⟨k, u, es, rfl⟩ <;>
      rcases form_shown_none hidden' with ⟨t, rfl⟩ | ⟨c, rfl⟩ | ⟨l, x, fs, rfl⟩
    · rfl
    · rw [body_flag] at same
      exact (text_ne_flag same).elim
    · rw [body_entries] at same
      exact (text_ne_entry same).elim
    · rw [body_flag] at same
      exact (text_ne_flag same.symm).elim
    · rfl
    · rw [body_flag, body_entries] at same
      exact (flag_ne_entry same).elim
    · rw [body_entries] at same
      exact (text_ne_entry same.symm).elim
    · rw [body_flag, body_entries] at same
      exact (flag_ne_entry same.symm).elim
    · rfl

theorem form_eq_cases {v w : Value} (alike : form v = form w) :
    (∃ s t, v = .str s ∧ w = .str t) ∨ (∃ b c, v = .bool b ∧ w = .bool c) ∨
      (v = .list [] ∧ w = .list []) ∨
      (∃ items items', v = .list items ∧ w = .list items' ∧ items ≠ [] ∧ items' ≠ []) ∨
      (v = .map [] ∧ w = .map []) ∨
      ∃ es es', v = .map es ∧ w = .map es' ∧ es ≠ [] ∧ es' ≠ [] := by
  rcases v with s | b | (_ | ⟨x, xs⟩) | (_ | ⟨e, es⟩) <;>
    rcases w with t | c | (_ | ⟨y, ys⟩) | (_ | ⟨f, fs⟩) <;> simp [form] at alike ⊢

section

variable {m : Nat} {v w : Value} {r r' : List Char}

theorem body_cancel (inner : ∀ es, v = .map es → ∀ e ∈ es, Legible e.2)
    (follows : Follows (m + 1) r) (follows' : Follows (m + 1) r')
    (same : body m v ++ r = body m w ++ r') : v = w ∧ r = r' := by
  rcases form_eq_cases (form_of_body same) with ⟨s, t, rfl, rfl⟩ | ⟨b, c, rfl, rfl⟩ | ⟨rfl, rfl⟩ |
    ⟨items, items', rfl, rfl, filled, filled'⟩ | ⟨rfl, rfl⟩ | ⟨es, es', rfl, rfl, filled, filled'⟩
  · obtain ⟨text, rest⟩ := scalarLine_cancel (follows.mono (by omega)).below
      (follows'.mono (by omega)).below same
    exact ⟨by rw [String.toList_inj.1 text], rest⟩
  · rw [body_flag, body_flag] at same
    cases b <;> cases c <;> simp_all [flagText]
  · exact ⟨rfl, List.append_cancel_left same⟩
  · rw [body, body] at same
    · obtain ⟨rfl, rest⟩ := itemLines_cancel filled filled' (follows.mono (by omega))
        (follows'.mono (by omega)) same
      exact ⟨rfl, rest⟩
    · exact filled'
    · exact filled
  · exact ⟨rfl, List.append_cancel_left same⟩
  · rw [body, body] at same
    · obtain ⟨rfl, rest⟩ := entryLines_cancel (inner es rfl) filled filled'
        (follows.mono (by omega)) (follows'.mono (by omega)) same
      exact ⟨rfl, rest⟩
    · exact filled'
    · exact filled

/-- The items of a list stand less deep than the entries of a map. -/
theorem items_ne_entries {items : List String} (filled : items ≠ []) {s : List Char} :
    spaces m ++ itemLines m items ++ r ≠ spaces (m + 2) ++ s := by
  intro same
  cases items with
  | nil => exact filled rfl
  | cons x items =>
    rw [itemLines_cons, List.append_assoc] at same
    exact spaces_append_ne (by omega) (by decide) same.symm

theorem simpleValue_cancel (inner : ∀ es, v = .map es → ∀ e ∈ es, Legible e.2)
    (follows : Follows (m + 1) r) (follows' : Follows (m + 1) r')
    (same : simpleValue m v ++ r = simpleValue m w ++ r') : v = w ∧ r = r' := by
  rcases simpleValue_cases m v with text | ⟨items, rfl, filled, text⟩ | ⟨es, rfl, filled, text⟩ <;>
    rcases simpleValue_cases m w with text' | ⟨items', rfl, filled', text'⟩ |
      ⟨es', rfl, filled', text'⟩ <;>
    rw [text, text', List.cons_append, List.cons_append] at same <;>
    have line := List.cons.inj same
  · exact body_cancel inner follows follows' line.2
  · exact absurd line.1 (by decide)
  · exact absurd line.1 (by decide)
  · exact absurd line.1 (by decide)
  · have lines := line.2
    rw [List.append_assoc, List.append_assoc] at lines
    obtain ⟨rfl, rest⟩ :=
      itemLines_cancel filled filled' follows follows' (List.append_cancel_left lines)
    exact ⟨rfl, rest⟩
  · have lines := line.2
    rw [List.append_assoc (spaces (m + 2))] at lines
    exact (items_ne_entries filled lines).elim
  · exact absurd line.1 (by decide)
  · have lines := line.2
    rw [List.append_assoc (spaces (m + 2))] at lines
    exact (items_ne_entries filled' lines.symm).elim
  · have lines := line.2
    rw [List.append_assoc, List.append_assoc] at lines
    obtain ⟨rfl, rest⟩ := entryLines_cancel (inner es rfl) filled filled'
      (follows.mono (by omega)) (follows'.mono (by omega)) (List.append_cancel_left lines)
    exact ⟨rfl, rest⟩

theorem legible_of_inner (inner : ∀ es, v = .map es → ∀ e ∈ es, Legible e.2) : Legible v := by
  intro m w r r' follows follows'
  refine ⟨simpleValue_cancel inner follows follows', ?_⟩
  intro same
  rw [complexValue_eq, complexValue_eq] at same
  exact body_cancel inner follows follows' (List.cons.inj same).2

end

/-- Every value is legible, by induction on the nesting of maps. -/
theorem legible (v : Value) : Legible v :=
  legible_of_inner fun es shape e member =>
    have _smaller : sizeOf e.2 < sizeOf v := by
      obtain ⟨k, w⟩ := e
      have smaller := List.sizeOf_lt_of_mem member
      rw [shape]
      simp only [Value.map.sizeOf_spec, Prod.mk.sizeOf_spec] at smaller ⊢
      omega
    legible e.2
termination_by sizeOf v

/-- A document comes back from its text. -/
theorem document_injective : Function.Injective document := by
  intro es es' same
  have one (k : String) (v : Value) (r : List (String × Value)) :
      readForm (document ((k, v) :: r)) = none := by
    rw [document, entryLines_cons]
    · exact readForm_entryLine ..
    · simp
  cases es with
  | nil => cases es' with
    | nil => rfl
    | cons e es' =>
      have shown := one e.1 e.2 es'
      rw [← same] at shown
      cases shown
  | cons e es => cases es' with
    | nil =>
      have shown := one e.1 e.2 es
      rw [same] at shown
      cases shown
    | cons e' es' =>
      rw [document, document] at same
      · have lines : entryLines 0 (e :: es) ++ [] = entryLines 0 (e' :: es') ++ [] := by
          rw [same]
        exact (entryLines_cancel (fun f _ => legible f.2) (by simp) (by simp) (Or.inl rfl)
          (Or.inl rfl) lines).1
      · simp
      · simp

end PluginDescriptor.Yaml

namespace PluginDescriptor

/-- The text of a descriptor file tells the descriptor, with the order of its keys. -/
theorem Stamp.render_injective (s : Stamp) : Function.Injective s.render := by
  intro d e same
  unfold render Yaml.render at same
  have text := congrArg String.toList same
  rw [String.toList_append, String.toList_append, String.toList_ofList, String.toList_ofList]
    at text
  exact OrderedMap.ext (Yaml.document_injective (List.append_cancel_left text))

end PluginDescriptor
