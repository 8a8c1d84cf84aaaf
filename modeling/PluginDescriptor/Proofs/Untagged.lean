import PluginDescriptor.Proofs.Json.Snapshot

namespace PluginDescriptor

open Json

section Pairs

variable {α β : Type} {R S : α → β → Prop} {l : List α} {l' : List β}

theorem forall_mem_of_forall₂ {P : α → Prop} (each : List.Forall₂ R l l')
    (gives : ∀ a ∈ l, ∀ b, R a b → P a) : ∀ a ∈ l, P a := by
  induction each with
  | nil => exact List.forall_mem_nil _
  | cons here _ ih =>
    refine List.forall_mem_cons.2 ⟨gives _ List.mem_cons_self _ here, ih fun a mem => ?_⟩
    exact gives a (List.mem_cons_of_mem _ mem)

theorem exists_forall₂ (each : ∀ a ∈ l, ∃ b, R a b) : ∃ l', List.Forall₂ R l l' := by
  induction l with
  | nil => exact ⟨[], .nil⟩
  | cons a r ih =>
    obtain ⟨b, here⟩ := each a List.mem_cons_self
    obtain ⟨r', others⟩ := ih fun a mem => each a (List.mem_cons_of_mem _ mem)
    exact ⟨b :: r', .cons here others⟩

theorem forall₂_congr_left (same : ∀ a ∈ l, ∀ b, R a b ↔ S a b) :
    List.Forall₂ R l l' ↔ List.Forall₂ S l l' := by
  constructor
  · intro each
    have both := (List.forall₂_and_left l l').2 ⟨fun a mem b => (same a mem b).1, each⟩
    exact both.imp fun _ b h => h.1 b h.2
  · intro each
    have both := (List.forall₂_and_left l l').2 ⟨fun a mem b => (same a mem b).2, each⟩
    exact both.imp fun _ b h => h.1 b h.2

end Pairs

namespace Json.Reader

variable {α β : Type}

theorem run_eq_ok_iff {x : Reader α} {text : String} {a : α} : x.run text = .ok a ↔
    ∃ rest, x text.toList = .ok (a, rest) ∧ rest.all isSpace = true := by
  unfold run
  cases front : x text.toList with
  | error f => simp
  | ok r =>
    obtain ⟨b, rest⟩ := r
    dsimp only
    constructor
    · intro read
      by_cases spaces : rest.all isSpace = true
      · rw [if_pos spaces] at read
        cases read
        exact ⟨rest, rfl, spaces⟩
      · rw [if_neg spaces] at read
        cases read
    · rintro ⟨_, same, spaces⟩
      cases same
      exact if_pos spaces

theorem bind_apply_eq_ok {x : Reader α} {f : α → Reader β} {cs : List Char} {r : β × List Char} :
    (x >>= f) cs = .ok r ↔ ∃ a rest, x cs = .ok (a, rest) ∧ f a rest = .ok r := by
  change (x cs >>= fun p => f p.1 p.2) = .ok r ↔ _
  cases x cs with
  | error f => exact ⟨nofun, nofun⟩
  | ok p =>
    obtain ⟨a, rest⟩ := p
    constructor
    · intro run
      exact ⟨a, rest, rfl, run⟩
    · rintro ⟨_, _, same, run⟩
      cases same
      exact run

end Json.Reader

/-- The JSON that names a marker. -/
inductive Marker.NamedBy (m : Marker) : Json → Prop
  | text : m.NamedBy (.str m.name)
  | key : m.NamedBy (.object [(m.name, .null)])

theorem Marker.lookup_eq_some {s : String} {m : Marker} : options.lookup s = some m ↔ s = m.name := by
  constructor
  · intro found
    obtain ⟨before, after, split, -⟩ := List.lookup_eq_some_iff.1 found
    have member : (s, m) ∈ options := by simp [split]
    obtain ⟨n, -, same⟩ := List.mem_map.1 member
    cases same
    rfl
  · rintro rfl
    exact m.lookup_options

theorem Marker.ofJson?_eq_some {m : Marker} {j : Json} : ofJson? j = some m ↔ m.NamedBy j := by
  constructor
  · intro named
    unfold ofJson? at named
    split at named
    · obtain rfl := lookup_eq_some.1 named
      exact .text
    · obtain rfl := lookup_eq_some.1 named
      exact .key
    · cases named
  · rintro (_ | _)
    · exact m.lookup_options
    · exact m.lookup_options

/-- All that stands under a key. -/
def Json.under (key : String) (members : List (String × Json)) : List Json :=
  (members.filter (·.1 = key)).map Prod.snd

theorem Json.under_cons (key k : String) (j : Json) (members : List (String × Json)) :
    under key ((k, j) :: members) = if k = key then j :: under key members else under key members := by
  by_cases same : k = key <;> simp [under, same]

namespace AnnotationValue

/-- An object that is an annotation with these fields. It has one marker; members of other names say
nothing. -/
structure IsObject (m : Marker) (fields members : List (String × Json)) : Prop where
  marker : ∃ j, under "marker" members = [j] ∧ m.NamedBy j
  fields : under "fields" members = [.object fields] ∨ under "fields" members = [] ∧ fields = []

/-- An array that holds the parts of an annotation with these fields. -/
inductive IsRow (m : Marker) : List (String × Json) → List Json → Prop
  | bare {j : Json} : m.NamedBy j → IsRow m [] [j]
  | full {j : Json} {fields : List (String × Json)} : m.NamedBy j → IsRow m fields [j, .object fields]

/-- JSON that stands for a value. By its type alone, an array has nothing but values in it; with `rows`
it may also hold the parts of an annotation. -/
inductive IsValue (rows : Prop) : Json → Prop
  | bool (b : Bool) : IsValue rows (.bool b)
  | str (s : String) : IsValue rows (.str s)
  | array {items : List Json} : (∀ i ∈ items, IsValue rows i) → IsValue rows (.array items)
  | nested {m : Marker} {fields members : List (String × Json)} : IsObject m fields members →
      (∀ i ∈ fields.map Prod.snd, IsValue rows i) → IsValue rows (.object members)
  | row {m : Marker} {fields : List (String × Json)} {items : List Json} : rows → IsRow m fields items →
      (∀ i ∈ fields.map Prod.snd, IsValue rows i) → IsValue rows (.array items)

/-- The fields of an annotation with these values. Of two with one name the later counts. -/
def fieldsWith (fields : List (String × Json)) (values : List AnnotationValue) :
    List (String × AnnotationValue) :=
  Entries.collapse ((Entries.keys fields).zip values)

/-- The value that JSON stands for. With `rows`, an array is taken for an annotation if it holds the parts
of one and not all of its items are values. -/
inductive TakenFor (rows : Prop) : Json → AnnotationValue → Prop
  | bool (b : Bool) : TakenFor rows (.bool b) (.bool b)
  | str (s : String) : TakenFor rows (.str s) (.str s)
  | array {items : List Json} {values : List AnnotationValue} :
      List.Forall₂ (TakenFor rows) items values → TakenFor rows (.array items) (.array values)
  | nested {m : Marker} {fields members : List (String × Json)} {values : List AnnotationValue} :
      IsObject m fields members → List.Forall₂ (TakenFor rows) (fields.map Prod.snd) values →
      TakenFor rows (.object members) (.nested m (fieldsWith fields values))
  | row {m : Marker} {fields : List (String × Json)} {items : List Json} {values : List AnnotationValue} :
      rows → IsRow m fields items → (∃ i ∈ items, ¬ IsValue rows i) →
      List.Forall₂ (TakenFor rows) (fields.map Prod.snd) values →
      TakenFor rows (.array items) (.nested m (fieldsWith fields values))

section Reading

variable {items : List Json} {fields members : List (String × Json)} {values : List AnnotationValue}
  {v : AnnotationValue}

theorem ofItems?_eq_some :
    ofItems? items = some values ↔ List.Forall₂ (fun j v => ofJson? j = some v) items values := by
  induction items generalizing values with
  | nil => simp [ofItems?, eq_comm]
  | cons j r ih =>
    rw [ofItems?, List.forall₂_cons_left_iff]
    cases read : ofJson? j with
    | none => simp
    | some v =>
      simp only [Option.map_eq_some_iff, ih]
      constructor
      · rintro ⟨rest, each, rfl⟩
        exact ⟨v, rest, rfl, each, rfl⟩
      · rintro ⟨_, rest, same, each, rfl⟩
        cases same
        exact ⟨rest, each, rfl⟩

theorem ofItems?_eq_none : ofItems? items = none ↔ ∃ j ∈ items, ofJson? j = none := by
  induction items with
  | nil => simp [ofItems?]
  | cons j r ih =>
    rw [ofItems?, List.exists_mem_cons_iff, ← ih]
    cases read : ofJson? j with
    | none => simp
    | some v => simp

/-- The values of an object are read as the items of an array are, and the names stay. -/
theorem ofFields?_eq (fields : List (String × Json)) :
    ofFields? fields = (ofItems? (fields.map Prod.snd)).map (Entries.keys fields).zip := by
  induction fields with
  | nil => rfl
  | cons f r ih =>
    obtain ⟨k, j⟩ := f
    rw [ofFields?, List.map_cons, ofItems?, ih]
    cases ofJson? j with
    | none => rfl
    | some v => simp [Option.map_map, Function.comp_def]

/-- What one of several things reads as, if there is one at all. -/
def lone? {α : Type} (read : Json → Option α) : List Json → Option (Option α)
  | [] => some none
  | [j] => (read j).map some
  | _ => none

theorem lone?_cons {α : Type} (read : Json → Option α) (j : Json) (r : List Json) :
    lone? read (j :: r) = (lone? read r).bind fun
      | none => (read j).map some
      | some _ => none := by
  match r with
  | [] => rfl
  | [i] => cases first : read i <;> simp [lone?, first]
  | _ :: _ :: _ => rfl

theorem lone?_eq_some_some {α : Type} {read : Json → Option α} {l : List Json} {a : α} :
    lone? read l = some (some a) ↔ ∃ j, l = [j] ∧ read j = some a := by
  match l with
  | [] => simp [lone?]
  | [j] => simp [lone?]
  | _ :: _ :: _ => simp [lone?]

theorem lone?_eq_some_none {α : Type} {read : Json → Option α} {l : List Json} :
    lone? read l = some none ↔ l = [] := by
  match l with
  | [] => simp [lone?]
  | [j] => simp [lone?]
  | _ :: _ :: _ => simp [lone?]

theorem ofMembers?_eq (members : List (String × Json)) :
    ofMembers? members = (lone? Marker.ofJson? (under "marker" members)).bind fun m =>
      (lone? ofMap? (under "fields" members)).map (m, ·) := by
  induction members with
  | nil => rfl
  | cons e r ih =>
    obtain ⟨k, j⟩ := e
    -- The member in front comes on top of those behind it, which are looked at first.
    rw [ofMembers?, ih, under_cons, under_cons]
    by_cases marker : k = "marker"
    · subst marker
      rw [if_pos rfl, if_neg (by decide), lone?_cons]
      generalize lone? ofMap? (under "fields" r) = fs
      cases fs with
      | none => cases lone? Marker.ofJson? (under "marker" r) <;> simp
      | some fs => match lone? Marker.ofJson? (under "marker" r) with
        | none => rfl
        | some (some _) => rfl
        | some none => cases Marker.ofJson? j <;> rfl
    · by_cases named : k = "fields"
      · subst named
        rw [if_neg marker, if_pos rfl, lone?_cons]
        generalize lone? Marker.ofJson? (under "marker" r) = m
        cases m with
        | none => rfl
        | some m => match lone? ofMap? (under "fields" r) with
          | none => rfl
          | some (some _) => rfl
          | some none => cases ofMap? j <;> rfl
      · simp only [if_neg marker, if_neg named]
        generalize lone? Marker.ofJson? (under "marker" r) = m
        generalize lone? ofMap? (under "fields" r) = fs
        cases m <;> cases fs <;> rfl

theorem ofMembers?_eq_some {m : Marker} {given : Option (List (String × AnnotationValue))} :
    ofMembers? members = some (some m, given) ↔ (∃ j, under "marker" members = [j] ∧ m.NamedBy j) ∧
      lone? ofMap? (under "fields" members) = some given := by
  simp only [ofMembers?_eq, Option.bind_eq_some_iff, Option.map_eq_some_iff, Prod.mk.injEq]
  constructor
  · rintro ⟨_, marker, _, fields, rfl, rfl⟩
    obtain ⟨j, single, named⟩ := lone?_eq_some_some.1 marker
    exact ⟨⟨j, single, Marker.ofJson?_eq_some.1 named⟩, fields⟩
  · rintro ⟨⟨j, single, named⟩, fields⟩
    exact ⟨_, lone?_eq_some_some.2 ⟨j, single, Marker.ofJson?_eq_some.2 named⟩, _, fields, rfl, rfl⟩

theorem ofMap?_eq_some {j : Json} {given : List (String × AnnotationValue)} :
    ofMap? j = some given ↔ ∃ fields values, j = .object fields ∧
      ofItems? (fields.map Prod.snd) = some values ∧ given = fieldsWith fields values := by
  cases j with
  | object fields =>
    simp only [ofMap?, ofFields?_eq, Option.map_map, Option.map_eq_some_iff, Function.comp_apply]
    constructor
    · rintro ⟨values, each, rfl⟩
      exact ⟨fields, values, rfl, each, rfl⟩
    · rintro ⟨_, values, same, each, rfl⟩
      cases same
      exact ⟨values, each, rfl⟩
  | null | bool | number | str | array => simp [ofMap?]

/-- The value of an object is the annotation that its one marker and its fields give. -/
theorem ofJson?_object : ofJson? (.object members) = some v ↔
    ∃ m fields values, IsObject m fields members ∧ ofItems? (fields.map Prod.snd) = some values ∧
      v = .nested m (fieldsWith fields values) := by
  have parts : ofJson? (.object members) = some v ↔
      ∃ m given, ofMembers? members = some (some m, given) ∧ v = .nested m (given.getD []) := by
    rw [ofJson?]
    split
    · next m given read => simp [read, eq_comm]
    · next other =>
      simp only [reduceCtorEq, false_iff]
      rintro ⟨m, given, read, -⟩
      exact other m given read
  simp only [parts, ofMembers?_eq_some]
  constructor
  · rintro ⟨m, given, ⟨marker, written⟩, rfl⟩
    cases given with
    | none =>
      have unset := lone?_eq_some_none.1 written
      exact ⟨m, [], [], ⟨marker, .inr ⟨unset, rfl⟩⟩, rfl, rfl⟩
    | some given =>
      obtain ⟨j, single, read⟩ := lone?_eq_some_some.1 written
      obtain ⟨fields, values, rfl, each, rfl⟩ := ofMap?_eq_some.1 read
      exact ⟨m, fields, values, ⟨marker, .inl single⟩, each, rfl⟩
  · rintro ⟨m, fields, values, ⟨marker, single | ⟨unset, rfl⟩⟩, each, rfl⟩
    · have read := ofMap?_eq_some.2 ⟨fields, values, rfl, each, rfl⟩
      exact ⟨m, _, ⟨marker, lone?_eq_some_some.2 ⟨_, single, read⟩⟩, rfl⟩
    · cases each
      exact ⟨m, none, ⟨marker, lone?_eq_some_none.2 unset⟩, rfl⟩

theorem ofParts?_eq_some : ofParts? items = some v ↔
    ∃ m fields values, IsRow m fields items ∧ ofItems? (fields.map Prod.snd) = some values ∧
      v = .nested m (fieldsWith fields values) := by
  constructor
  · intro read
    unfold ofParts? at read
    split at read
    · next j =>
      obtain ⟨m, named, rfl⟩ := Option.map_eq_some_iff.1 read
      exact ⟨m, [], [], .bare (Marker.ofJson?_eq_some.1 named), rfl, rfl⟩
    · next j more =>
      split at read
      · next m given named there =>
        cases read
        obtain ⟨fields, values, rfl, each, rfl⟩ := ofMap?_eq_some.1 there
        exact ⟨m, fields, values, .full (Marker.ofJson?_eq_some.1 named), each, rfl⟩
      · cases read
    · cases read
  · rintro ⟨m, fields, values, row, each, rfl⟩
    cases row with
    | bare named =>
      cases each
      rw [ofParts?, Marker.ofJson?_eq_some.2 named]
      rfl
    | full named =>
      rw [ofParts?, Marker.ofJson?_eq_some.2 named, ofMap?_eq_some.2 ⟨fields, values, rfl, each, rfl⟩]

end Reading

section Depth

variable {items : List Json} {fields members : List (String × Json)} {m : Marker} {i : Json}

theorem depth_lt_of_item (member : i ∈ items) : i.depth < (Json.array items).depth :=
  Nat.lt_succ_of_le (itemsDepth_le.1 (Nat.le_refl _) i member)

theorem depth_lt_of_value (member : i ∈ fields.map Prod.snd) : i.depth < (Json.object fields).depth := by
  obtain ⟨f, inside, rfl⟩ := List.mem_map.1 member
  exact Nat.lt_succ_of_le (membersDepth_le.1 (Nat.le_refl _) f inside)

theorem mem_of_under {key : String} {j : Json} (written : j ∈ under key members) :
    j ∈ members.map Prod.snd :=
  (List.filter_sublist.map Prod.snd).subset written

theorem IsObject.depth_lt (object : IsObject m fields members) (member : i ∈ fields.map Prod.snd) :
    i.depth < (Json.object members).depth := by
  obtain single | ⟨-, rfl⟩ := object.fields
  · have inside : Json.object fields ∈ under "fields" members := by simp [single]
    exact Nat.lt_trans (depth_lt_of_value member) (depth_lt_of_value (mem_of_under inside))
  · cases member

theorem IsRow.depth_lt (row : IsRow m fields items) (member : i ∈ fields.map Prod.snd) :
    i.depth < (Json.array items).depth := by
  cases row with
  | bare => cases member
  | full => exact Nat.lt_trans (depth_lt_of_value member) (depth_lt_of_item (by simp))

end Depth

section Whole

variable {rows : Prop} {j : Json} {v : AnnotationValue}

theorem TakenFor.isValue (taken : TakenFor rows j v) : IsValue rows j := by
  -- The parts of a value stand in lists, so the induction is on how deep the JSON nests.
  induction size : j.depth using Nat.strongRecOn generalizing j v with
  | ind d below =>
    subst size
    cases taken with
    | bool b => exact .bool b
    | str s => exact .str s
    | array each =>
      exact .array <| forall_mem_of_forall₂ each fun i mem _ taken =>
        below _ (depth_lt_of_item mem) taken rfl
    | nested object each =>
      exact .nested object <| forall_mem_of_forall₂ each fun i mem _ taken =>
        below _ (object.depth_lt mem) taken rfl
    | row allowed row _ each =>
      exact .row allowed row <| forall_mem_of_forall₂ each fun i mem _ taken =>
        below _ (row.depth_lt mem) taken rfl

/-- Whatever stands for a value is read; by its type alone if it stands for one by its type. -/
theorem IsValue.exists_ofJson? (value : IsValue rows j) :
    ∃ v, ofJson? j = some v ∧ (¬ rows → TakenFor rows j v) := by
  induction value with
  | bool b => exact ⟨.bool b, rfl, fun _ => .bool b⟩
  | str s => exact ⟨.str s, rfl, fun _ => .str s⟩
  | array _ ih =>
    obtain ⟨values, each⟩ := exists_forall₂ ih
    have read := ofItems?_eq_some.2 (each.imp fun _ _ taken => taken.1)
    refine ⟨.array values, by rw [ofJson?, read], fun byType => ?_⟩
    exact .array (each.imp fun _ _ taken => taken.2 byType)
  | nested object _ ih =>
    obtain ⟨values, each⟩ := exists_forall₂ ih
    have read := ofItems?_eq_some.2 (each.imp fun _ _ taken => taken.1)
    refine ⟨_, ofJson?_object.2 ⟨_, _, values, object, read, rfl⟩, fun byType => ?_⟩
    exact .nested object (each.imp fun _ _ taken => taken.2 byType)
  | @row _ _ items allowed row _ ih =>
    obtain ⟨values, each⟩ := exists_forall₂ ih
    have read := ofItems?_eq_some.2 (each.imp fun _ _ taken => taken.1)
    have parts := ofParts?_eq_some.2 ⟨_, _, values, row, read, rfl⟩
    cases all : ofItems? items with
    | some values => exact ⟨.array values, by rw [ofJson?, all], fun byType => absurd allowed byType⟩
    | none => exact ⟨_, by rw [ofJson?, all, parts], fun byType => absurd allowed byType⟩

/-- JSON is read as the value that it stands for. -/
theorem ofJson?_eq_some : ofJson? j = some v ↔ TakenFor True j v := by
  induction size : j.depth using Nat.strongRecOn generalizing j v with
  | ind d below =>
    subst size
    have parts {l : List Json} {values : List AnnotationValue} (smaller : ∀ i ∈ l, i.depth < j.depth) :
        ofItems? l = some values ↔ List.Forall₂ (TakenFor True) l values :=
      ofItems?_eq_some.trans (forall₂_congr_left fun i mem _ => below _ (smaller i mem) rfl)
    cases j with
    | null => exact ⟨nofun, nofun⟩
    | number n => exact ⟨nofun, nofun⟩
    | bool b =>
      constructor
      · rintro ⟨⟩
        exact .bool b
      · rintro ⟨⟩
        rfl
    | str s =>
      constructor
      · rintro ⟨⟩
        exact .str s
      · rintro ⟨⟩
        rfl
    | array items =>
      constructor
      · intro read
        rw [ofJson?] at read
        split at read
        · next values all =>
          cases read
          exact .array ((parts fun _ => depth_lt_of_item).1 all)
        · next stray =>
          obtain ⟨m, fields, values, row, each, rfl⟩ := ofParts?_eq_some.1 read
          obtain ⟨i, mem, unread⟩ := ofItems?_eq_none.1 stray
          refine .row trivial row ⟨i, mem, fun value => ?_⟩ ((parts fun _ => row.depth_lt).1 each)
          obtain ⟨v, known, -⟩ := value.exists_ofJson?
          rw [unread] at known
          cases known
      · intro taken
        rw [ofJson?]
        cases taken with
        | array each => rw [(parts fun _ => depth_lt_of_item).2 each]
        | row _ row stray each =>
          obtain ⟨i, mem, odd⟩ := stray
          have unread : ofJson? i = none := by
            refine Option.eq_none_iff_forall_ne_some.2 fun v read => odd ?_
            exact ((below _ (depth_lt_of_item mem) rfl).1 read).isValue
          rw [ofItems?_eq_none.2 ⟨i, mem, unread⟩]
          exact ofParts?_eq_some.2 ⟨_, _, _, row, (parts fun _ => row.depth_lt).2 each, rfl⟩
    | object members =>
      rw [ofJson?_object]
      constructor
      · rintro ⟨m, fields, values, object, each, rfl⟩
        exact .nested object ((parts fun _ => object.depth_lt).1 each)
      · rintro (_ | _ | _ | ⟨object, each⟩)
        exact ⟨_, _, _, object, (parts fun _ => object.depth_lt).2 each, rfl⟩

/-- The JSON type of a value and of its parts decides exactly if no array has to be taken for an
annotation. -/
theorem takenFor_byType_iff (read : ofJson? j = some v) : TakenFor False j v ↔ IsValue False j := by
  constructor
  · exact TakenFor.isValue
  · intro value
    obtain ⟨v', read', byType⟩ := value.exists_ofJson?
    cases read.symm.trans read'
    exact byType id

end Whole

section Text

variable {d : Nat} {text : String} {v : AnnotationValue}

/-- The text of a value is the text of JSON that is read as the value. -/
theorem run_reader_eq_ok : (reader d).run text = .ok v ↔
    ∃ j, (Reader.tree d).run text = .ok j ∧ ofJson? j = some v := by
  simp only [Reader.run_eq_ok_iff, reader, Reader.bind_apply_eq_ok]
  constructor
  · rintro ⟨rest, ⟨j, rest', json, read⟩, spaces⟩
    cases known : ofJson? j with
    | none =>
      rw [known] at read
      cases read
    | some w =>
      rw [known] at read
      cases read
      exact ⟨j, ⟨rest, json, spaces⟩, known⟩
  · rintro ⟨j, ⟨rest, json, spaces⟩, known⟩
    refine ⟨rest, ⟨j, rest, json, ?_⟩, spaces⟩
    rw [known]
    rfl

end Text

/-- A text holds a value exactly if it is the JSON of one, and then it holds the value that the JSON is
taken for. The types of the JSON and of its parts decide on this value alone unless some array is no row of
values but the parts of an annotation. -/
theorem run_reader_takenFor (text : String) :
    (∀ v, (reader Reader.maxDepth).run text = .ok v ↔
      ∃ j, (Reader.tree Reader.maxDepth).run text = .ok j ∧ TakenFor True j v) ∧
    ((∃ v, (reader Reader.maxDepth).run text = .ok v) ↔
      ∃ j, (Reader.tree Reader.maxDepth).run text = .ok j ∧ IsValue True j) ∧
    ∀ j v, (Reader.tree Reader.maxDepth).run text = .ok j → (reader Reader.maxDepth).run text = .ok v →
      (TakenFor False j v ↔ IsValue False j) := by
  simp only [run_reader_eq_ok]
  refine ⟨fun v => by simp only [ofJson?_eq_some], ?_, ?_⟩
  · constructor
    · rintro ⟨v, j, json, read⟩
      exact ⟨j, json, (ofJson?_eq_some.1 read).isValue⟩
    · rintro ⟨j, json, value⟩
      obtain ⟨v, read, -⟩ := value.exists_ofJson?
      exact ⟨v, j, json, read⟩
  · rintro j v json ⟨_, json', read⟩
    cases json.symm.trans json'
    exact takenFor_byType_iff read

/-- The JSON of an annotation with an array in its field. -/
def signed : Json :=
  .object [("marker", .str "Author"), ("fields", .object [("value", .array [.bool true, .str "a"])])]

theorem run_reader_takenFor_signed :
    (Reader.tree Reader.maxDepth).run signed.compact = .ok signed ∧
      (reader Reader.maxDepth).run signed.compact =
        .ok (.nested .author [("value", .array [.bool true, .str "a"])]) ∧
      TakenFor False signed (.nested .author [("value", .array [.bool true, .str "a"])]) := by
  have plain : signed.Numberless := by simp [signed, Numberless, NumberlessMembers, NumberlessItems]
  have json := (takes_tree plain (by decide : signed.depth ≤ Reader.maxDepth)).run
  have read : (reader Reader.maxDepth).run signed.compact =
      .ok (.nested .author [("value", .array [.bool true, .str "a"])]) :=
    run_reader_eq_ok.2 ⟨signed, json, by rfl⟩
  have items : IsValue False (.array [.bool true, .str "a"]) := by
    refine .array (List.forall_mem_cons.2 ⟨.bool true, ?_⟩)
    exact List.forall_mem_singleton.2 (.str "a")
  have value : IsValue False signed :=
    .nested (m := .author) ⟨⟨_, rfl, .text⟩, .inl rfl⟩ (List.forall_mem_singleton.2 items)
  exact ⟨json, read, ((run_reader_takenFor _).2.2 _ _ json read).2 value⟩

/-- An array with the parts of an annotation, of which the second is no value. -/
def keyless : Json := .array [.str "Command", .object [("name", .str "fly")]]

theorem run_reader_keyless :
    (Reader.tree Reader.maxDepth).run "[\"Command\",\x7b\"name\":\"fly\"\x7d]" = .ok keyless ∧
      (reader Reader.maxDepth).run "[\"Command\",\x7b\"name\":\"fly\"\x7d]" =
        .ok (.nested .command [("name", .str "fly")]) ∧
      ∀ v, ¬ TakenFor False keyless v := by
  have text : "[\"Command\",\x7b\"name\":\"fly\"\x7d]" = String.ofList keyless.chars := by decide +kernel
  have plain : keyless.Numberless := by simp [keyless, Numberless, NumberlessItems, NumberlessMembers]
  have json := (takes_tree plain (by decide : keyless.depth ≤ Reader.maxDepth)).run
  rw [← text] at json
  refine ⟨json, run_reader_eq_ok.2 ⟨keyless, json, by rfl⟩, fun v taken => ?_⟩
  cases taken.isValue with
  | array each =>
    cases each _ (List.mem_cons_of_mem _ List.mem_cons_self) with
    | nested object => simpa [under] using object.marker
  | row allowed => exact allowed

end AnnotationValue
end PluginDescriptor
