import PluginDescriptor.Proofs.Assembled

namespace PluginDescriptor

namespace Value

def IsText (v : Value) : Prop := ∃ t, v = .str t

/-- A text that is not empty. -/
def IsFilledText (v : Value) : Prop := ∃ t, v = .str t ∧ t ≠ ""

def IsFlag (v : Value) : Prop := ∃ b, v = .bool b

/-- A list of texts, not shorter than this. -/
def IsList (least : Nat) (v : Value) : Prop := ∃ items, v = .list items ∧ least ≤ items.length

/-- A map that is as `P` says. -/
def IsMap (P : Document → Prop) (v : Value) : Prop := ∃ m : Document, v = .ofMap m ∧ P m

end Value

namespace Document

/-- If the key is there, its value is as `P` says. -/
def Allows (d : Document) (key : String) (P : Value → Prop) : Prop := ∀ v, d.get? key = some v → P v

/-- Every value of the map, under whatever key, is as `P` says. -/
def Each (P : Value → Prop) (d : Document) : Prop := ∀ key, d.Allows key P

end Document

/-- Keys in order, each with what its value may be. -/
abbrev Schema : Type := List (String × (Value → Prop))

/-- The keys of the map are some of the schema's in their order, and its values are as the schema
says. -/
structure Schema.Admits (schema : Schema) (d : Document) : Prop where
  keys : d.keys.Sublist (schema.map Prod.fst)
  values : ∀ row ∈ schema, d.Allows row.1 row.2

/-- Groups of ASCII digits, none of them empty, with single points between them. -/
def ApiVersion.IsVersionText (t : String) : Prop :=
  ∃ parts : List (List Char), parts ≠ [] ∧ (∀ g ∈ parts, g ≠ [] ∧ ∀ c ∈ g, c.isDigit = true) ∧
    t.toList = ['.'].intercalate parts

section Schemas

open Value

def Command.schema : Schema :=
  [("aliases", fun v => v.IsText ∨ v.IsList 2),
    ("description", IsFilledText),
    ("permission", IsFilledText),
    ("permission-message", IsFilledText),
    ("usage", IsFilledText)]

/-- The usual default is not among those that are written. -/
def Permission.schema : Schema :=
  [("description", IsFilledText),
    ("default", fun v => v = .str "true" ∨ v = .str "false" ∨ v = .str "!op"),
    ("children", IsMap fun children => children.keys ≠ [] ∧ children.Each IsFlag)]

/-- The schema of a descriptor whose entry point has this name. -/
def Document.schema (main : String) : Schema :=
  [("main", (· = .str main)),
    ("name", IsText),
    ("version", IsText),
    ("description", IsText),
    ("load", fun v => v = .str "STARTUP" ∨ v = .str "POSTWORLD"),
    ("author", IsText),
    ("authors", IsList 2),
    ("website", IsText),
    ("prefix", IsText),
    ("libraries", IsList 1),
    ("depend", IsList 1),
    ("softdepend", IsList 1),
    ("loadbefore", IsList 1),
    ("commands", IsMap (Document.Each (IsMap Command.schema.Admits))),
    ("permissions", IsMap (Document.Each (IsMap Permission.schema.Admits))),
    ("api-version", fun v => ∃ t, v = .str t ∧ ApiVersion.IsVersionText t)]

end Schemas

/-- A descriptor as its readers expect it. -/
structure Document.IsDescriptor (main : String) (d : Document) : Prop where
  conforms : (Document.schema main).Admits d
  always : ∀ key ∈ ["main", "name", "version", "commands", "permissions"], key ∈ d.keys
  oneAuthor : "author" ∈ d.keys → "authors" ∉ d.keys

/-- Rows of a schema of which at most one is used. -/
def Schema.Offers (slot : Schema) (e : String × Value) : Prop := ∃ P, (e.1, P) ∈ slot ∧ P e.2

/-- Whatever is given for a slot is one of its rows. -/
def Fits (given : List (Option (String × Value))) (slots : List Schema) : Prop :=
  List.Forall₂ (fun g slot => ∀ e, g = some e → slot.Offers e) given slots

namespace Fits

variable {given : List (Option (String × Value))} {slots : List Schema}

theorem keys_sublist (fits : Fits given slots) :
    (Entries.keys (given.flatMap Option.toList)).Sublist (slots.flatten.map Prod.fst) := by
  induction fits with
  | nil => exact .slnil
  | @cons g slot given slots first _ ih =>
    have keys : (Entries.keys g.toList).Sublist (slot.map Prod.fst) := by
      cases g with
      | none => exact List.nil_sublist _
      | some e =>
        obtain ⟨P, row, _⟩ := first e rfl
        exact List.singleton_sublist.2 (List.mem_map_of_mem row)
    rw [List.flatten_cons, List.map_append, List.flatMap_cons, Entries.keys, List.map_append]
    exact keys.append ih

/-- Every entry is a row of the table. -/
theorem offers (fits : Fits given slots) {e : String × Value}
    (member : e ∈ given.flatMap Option.toList) : Schema.Offers slots.flatten e := by
  induction fits with
  | nil => cases member
  | @cons g slot given slots first _ ih =>
    rw [List.flatMap_cons, List.mem_append, Option.mem_toList] at member
    rw [List.flatten_cons]
    rcases member with here | later
    · obtain ⟨P, row, holds⟩ := first e here
      exact ⟨P, List.mem_append_left _ row, holds⟩
    · obtain ⟨P, row, holds⟩ := ih later
      exact ⟨P, List.mem_append_right _ row, holds⟩

theorem admits (fits : Fits given slots) (distinct : (slots.flatten.map Prod.fst).Nodup) :
    Schema.Admits slots.flatten (.ofList (given.flatMap Option.toList)) := by
  have nodup := distinct.sublist fits.keys_sublist
  refine ⟨?_, ?_⟩
  · rw [OrderedMap.keys, OrderedMap.entries_ofList nodup]
    exact fits.keys_sublist
  · rintro ⟨key, Q⟩ row v found
    obtain ⟨P, row', holds⟩ := fits.offers (OrderedMap.mem_of_get?_ofList found)
    have same := List.inj_on_of_nodup_map distinct row row' rfl
    cases same
    exact holds

/-- What is there under a key of a slot is what was given for the slot. -/
theorem mem_given_iff (fits : Fits given slots) (distinct : (slots.flatten.map Prod.fst).Nodup)
    {g : Option (String × Value)} {slot : Schema} (pair : (g, slot) ∈ given.zip slots)
    {e : String × Value} (key : e.1 ∈ slot.map Prod.fst) :
    e ∈ given.flatMap Option.toList ↔ g = some e := by
  induction fits with
  | nil => cases pair
  | @cons g' first given slots offered fits ih =>
    rw [List.flatten_cons, List.map_append, List.nodup_append] at distinct
    obtain ⟨_, distinct, apart⟩ := distinct
    rw [List.flatMap_cons, List.mem_append, Option.mem_toList]
    rcases List.mem_cons.1 pair with same | later
    · cases same
      -- a key of the first slot is none of the later ones
      have fresh : e ∉ given.flatMap Option.toList := fun inside =>
        apart _ key _ ((keys_sublist fits).subset (List.mem_map_of_mem inside)) rfl
      exact or_iff_left fresh
    · have fresh : e ∉ g' := fun here => by
        obtain ⟨P, row, _⟩ := offered e here
        have inLater : e.1 ∈ slots.flatten.map Prod.fst := by
          rw [List.map_flatten]
          exact List.mem_flatten_of_mem (List.mem_map_of_mem (List.of_mem_zip later).2) key
        exact apart _ (List.mem_map_of_mem row) _ inLater rfl
      exact (or_iff_right fresh).trans (ih distinct later)

/-- Under the key of a slot that has only this one stands what was given for the slot. -/
theorem get?_eq (fits : Fits given slots) (distinct : (slots.flatten.map Prod.fst).Nodup)
    {g : Option (String × Value)} {key : String} {P : Value → Prop}
    (pair : (g, [(key, P)]) ∈ given.zip slots) :
    (OrderedMap.ofList (given.flatMap Option.toList)).get? key = g.map Prod.snd := by
  have nodup := distinct.sublist fits.keys_sublist
  have here (v : Value) := fits.mem_given_iff distinct pair (e := (key, v)) (by simp)
  ext v
  rw [Option.map_eq_some_iff]
  constructor
  · intro found
    exact ⟨(key, v), (here v).1 (OrderedMap.mem_of_get?_ofList found), rfl⟩
  · rintro ⟨⟨k, v⟩, rfl, rfl⟩
    obtain ⟨Q, row, _⟩ := (List.forall₂_iff_zip.1 fits).2 pair _ rfl
    cases List.mem_singleton.1 row
    exact OrderedMap.get?_ofList_of_mem nodup ((here v).2 rfl)

/-- Of the keys of one slot at most one is there. -/
theorem one (fits : Fits given slots) (distinct : (slots.flatten.map Prod.fst).Nodup) {slot : Schema}
    (member : slot ∈ slots) {e f : String × Value} (inE : e ∈ given.flatMap Option.toList)
    (inF : f ∈ given.flatMap Option.toList) (keyE : e.1 ∈ slot.map Prod.fst)
    (keyF : f.1 ∈ slot.map Prod.fst) : e = f := by
  rw [← List.map_snd_zip (List.Forall₂.length_eq fits).ge] at member
  obtain ⟨⟨g, _⟩, pair, rfl⟩ := List.mem_map.1 member
  have ofE := (fits.mem_given_iff distinct pair keyE).1 inE
  have ofF := (fits.mem_given_iff distinct pair keyF).1 inF
  exact Option.some.inj (ofE.symm.trans ofF)

end Fits

/-- What the part gives, if anything, is a row of the slot. -/
def Part.Gives (p : Part) (slot : Schema) : Prop := ∀ e, p = .ok (some e) → slot.Offers e

/-- Whenever the part can be read, it gives something under the key. -/
def Part.AlwaysGives (p : Part) (key : String) : Prop := ∀ g, p = .ok g → ∃ v, g = some (key, v)

theorem Part.AlwaysGives.mem_keys {p : Part} {key : String} (always : p.AlwaysGives key)
    {parts : List Part} {given : List (Option (String × Value))} (run : parts.mapM id = .ok given)
    (member : p ∈ parts) : key ∈ (OrderedMap.ofList (given.flatMap Option.toList)).keys := by
  obtain ⟨g, inside, result⟩ := exists_result_of_mem run member
  obtain ⟨v, rfl⟩ := always g result
  exact OrderedMap.mem_keys_ofList.2 ⟨v, List.mem_flatMap.2 ⟨_, inside, by simp⟩⟩

theorem Fits.of_parts {parts : List Part} {slots : List Schema}
    {given : List (Option (String × Value))} (run : parts.mapM id = .ok given)
    (gives : List.Forall₂ Part.Gives parts slots) : Fits given slots := by
  rw [mapM_eq_ok] at run
  induction gives generalizing given with
  | nil =>
    cases run
    exact .nil
  | cons first _ ih =>
    cases run with
    | cons head rest => exact .cons (fun e same => first e (same ▸ head)) (ih rest)

theorem Schema.offers_single {key : String} {P : Value → Prop} {v : Value} (holds : P v) :
    Schema.Offers [(key, P)] (key, v) :=
  ⟨P, List.mem_singleton_self _, holds⟩

/-- A text under a key, unless the text is empty. -/
def Document.textGiven (key text : String) : Option (String × Value) :=
  if text = "" then none else some (key, .str text)

theorem Document.putText_ofList (l : List (String × Value)) (key text : String) :
    Document.putText (.ofList l) key text = .ofList (l ++ (textGiven key text).toList) := by
  unfold putText textGiven
  split
  · exact congrArg OrderedMap.ofList (List.append_nil l).symm
  · exact (OrderedMap.ofList_concat l (key, .str text)).symm

theorem Document.textGiven_offers (key text : String) (e : String × Value)
    (given : textGiven key text = some e) : Schema.Offers [(key, Value.IsFilledText)] e := by
  unfold textGiven at given
  split at given
  · cases given
  · next filled =>
    cases given
    exact Schema.offers_single ⟨text, rfl, filled⟩

namespace Command

theorem entry_eq (c : Command) :
    c.entry = .ofList ([(aliasesValue c.aliases).map (Prod.mk "aliases"),
      Document.textGiven "description" c.description,
      Document.textGiven "permission" c.permission,
      Document.textGiven "permission-message" c.permissionMessage,
      Document.textGiven "usage" c.usage].flatMap Option.toList) := by
  have texts (l : List (String × Value)) :
      ((((Document.putText (.ofList l) "description" c.description).putText
        "permission" c.permission).putText "permission-message" c.permissionMessage).putText
        "usage" c.usage) =
      .ofList (l ++ [Document.textGiven "description" c.description,
        Document.textGiven "permission" c.permission,
        Document.textGiven "permission-message" c.permissionMessage,
        Document.textGiven "usage" c.usage].flatMap Option.toList) := by
    simp only [Document.putText_ofList, List.flatMap_cons, List.flatMap_nil, List.append_assoc,
      List.append_nil]
  unfold entry
  cases aliasesValue c.aliases with
  | none => exact texts []
  | some v => exact texts [("aliases", v)]

/-- The entry of a command conforms to its schema. -/
theorem schema_admits (c : Command) : schema.Admits c.entry := by
  have aliases (e : String × Value)
      (given : (aliasesValue c.aliases).map (Prod.mk "aliases") = some e) :
      Schema.Offers [("aliases", fun v => v.IsText ∨ v.IsList 2)] e := by
    obtain ⟨v, shown, rfl⟩ := Option.map_eq_some_iff.1 given
    refine Schema.offers_single ?_
    match named : c.aliases, shown with
    | [a], shown =>
      cases shown
      exact Or.inl ⟨a, rfl⟩
    | a :: b :: r, shown =>
      cases shown
      exact Or.inr ⟨_, rfl, by simp⟩
  have text := Document.textGiven_offers
  rw [entry_eq]
  have fits : Fits _ _ := .cons aliases (.cons (text "description" c.description)
    (.cons (text "permission" c.permission) (.cons (text "permission-message" c.permissionMessage)
      (.cons (text "usage" c.usage) .nil))))
  exact fits.admits (by decide)

end Command

namespace Permission

/-- The default, unless it is the usual one. -/
def defaultGiven (p : Permission) : Option (String × Value) :=
  if p.default = .operators then none else some ("default", .str p.default.name)

/-- The children, unless there are none. -/
def childrenGiven (p : Permission) : Option (String × Value) :=
  if p.children.isEmpty then none else some ("children", .ofMap (childMap p.children))

theorem entry_eq (p : Permission) :
    p.entry = .ofList ([Document.textGiven "description" p.description, p.defaultGiven,
      p.childrenGiven].flatMap Option.toList) := by
  have described : Document.putText ∅ "description" p.description =
      .ofList (Document.textGiven "description" p.description).toList :=
    Document.putText_ofList [] "description" p.description
  have put (l : List (String × Value)) (key : String) (v : Value) :
      (OrderedMap.ofList l).insert key v = .ofList (l ++ (some (key, v)).toList) :=
    (OrderedMap.ofList_concat l (key, v)).symm
  unfold entry defaultGiven childrenGiven
  rw [described]
  split <;> split <;>
    simp only [put, Option.toList_none, List.flatMap_cons, List.flatMap_nil, List.append_assoc,
      List.append_nil, List.nil_append]

theorem childMap_keys {children : List ChildPermission} (some_ : children ≠ []) :
    (childMap children).keys ≠ [] := by
  obtain ⟨c, rest, rfl⟩ := List.exists_cons_of_ne_nil some_
  have first : c.name ∈ (childMap (c :: rest)).keys :=
    OrderedMap.mem_keys_ofList.2 ⟨.bool c.inherit, List.mem_cons_self ..⟩
  exact List.ne_nil_of_mem first

theorem childMap_each (children : List ChildPermission) :
    (childMap children).Each Value.IsFlag := by
  intro key v found
  have member := OrderedMap.mem_of_get?_ofList found
  obtain ⟨c, _, same⟩ := List.mem_map.1 member
  cases same
  exact ⟨c.inherit, rfl⟩

/-- The entry of a permission conforms to its schema. -/
theorem schema_admits (p : Permission) : schema.Admits p.entry := by
  have default (e : String × Value) (given : p.defaultGiven = some e) :
      Schema.Offers [("default", fun v => v = .str "true" ∨ v = .str "false" ∨ v = .str "!op")]
        e := by
    unfold defaultGiven at given
    split at given
    · cases given
    · next unusual =>
      cases given
      refine Schema.offers_single ?_
      cases named : p.default with
      | operators => exact (unusual named).elim
      | everyone => exact Or.inl rfl
      | nobody => exact Or.inr (Or.inl rfl)
      | others => exact Or.inr (Or.inr rfl)
  have children (e : String × Value) (given : p.childrenGiven = some e) :
      Schema.Offers [("children",
        Value.IsMap fun children => children.keys ≠ [] ∧ children.Each Value.IsFlag)] e := by
    unfold childrenGiven at given
    split at given
    · cases given
    · next filled =>
      cases given
      rw [List.isEmpty_iff] at filled
      exact Schema.offers_single ⟨_, rfl, childMap_keys filled, childMap_each _⟩
  rw [entry_eq]
  have fits : Fits _ _ := .cons (Document.textGiven_offers "description" p.description)
    (.cons default (.cons children .nil))
  exact fits.admits (by decide)

end Permission

namespace Registry

/-- What holds of every item holds of everything that is merged. -/
theorem merge_each {r : Registry} {P : Value → Prop}
    (item : ∀ a key v, r.item a = .ok (key, v) → P v) {s : Scanner} {entry : Handle} {m : Document}
    (run : r.merge s entry = .ok m) : m.Each P := by
  unfold merge at run
  rw [bind_eq_ok] at run
  obtain ⟨_, _, run⟩ := run
  obtain ⟨items, ⟨l, _, _, read⟩, rfl⟩ := foldlM_extend_eq_ok.1 run
  intro key v found
  obtain ⟨a, _, parsed⟩ := exists_reading_of_mem read (OrderedMap.mem_of_get?_ofList found)
  exact item a key v parsed

theorem commands_each {s : Scanner} {entry : Handle} {m : Document}
    (run : commands.merge s entry = .ok m) : m.Each (Value.IsMap Command.schema.Admits) := by
  refine merge_each (fun a key v item => ?_) run
  simp only [commands, bind_eq_ok, pure_eq_ok] at item
  obtain ⟨c, _, same⟩ := item
  cases same
  exact ⟨c.entry, rfl, c.schema_admits⟩

theorem permissions_each {s : Scanner} {entry : Handle} {m : Document}
    (run : permissions.merge s entry = .ok m) :
    m.Each (Value.IsMap Permission.schema.Admits) := by
  refine merge_each (fun a key v item => ?_) run
  simp only [permissions, bind_eq_ok, pure_eq_ok] at item
  obtain ⟨p, _, same⟩ := item
  cases same
  exact ⟨p.entry, rfl, p.schema_admits⟩

end Registry

namespace ApiVersion

theorem groups_eq_splitOn (cs : List Char) : groups cs = cs.splitOn '.' := by
  induction cs with
  | nil => rfl
  | cons c cs ih =>
    obtain ⟨g, gs, parts⟩ := List.exists_cons_of_ne_nil (List.splitOn_ne_nil '.' cs)
    rw [groups, ih, List.splitOn_cons_eq_if_modifyHead, parts]
    simp only [beq_iff_eq, List.modifyHead_cons]

/-- The version that a target asks for is written in groups of digits. -/
theorem isVersionText_of_ofTarget {target t : String} (run : ofTarget target = .ok (some t)) :
    IsVersionText t := by
  simp only [ofTarget] at run
  split at run
  · cases run
  · split at run
    · next version =>
      cases run
      simp only [isVersion, List.all_eq_true, Bool.and_eq_true, Bool.not_eq_true',
        List.isEmpty_eq_false_iff] at version
      refine ⟨groups (normalize (Text.trimChars target.toList)), ?_, version, ?_⟩
      · rw [groups_eq_splitOn]
        exact List.splitOn_ne_nil '.' _
      · rw [groups_eq_splitOn, List.intercalate_splitOn, String.toList_ofList]
    · cases run

end ApiVersion

namespace Source

open Value

variable (s : Source)

theorem textPart_gives (key : String) (m : Marker) : (s.textPart key m).Gives [(key, IsText)] := by
  intro e run
  simp only [textPart, bind_eq_ok, pure_eq_ok, Option.map_eq_some_iff] at run
  obtain ⟨_, _, t, _, rfl⟩ := run
  exact Schema.offers_single ⟨t, rfl⟩

theorem listPart_gives (key : String) (m : Marker) : (s.listPart key m).Gives [(key, IsList 1)] := by
  intro e run
  rw [listPart, bind_eq_ok] at run
  obtain ⟨values, _, run⟩ := run
  cases values with
  | nil => cases run
  | cons t rest =>
    cases run
    exact Schema.offers_single ⟨_, rfl, by simp⟩

theorem namePart_eq_ok {g : Option (String × Value)} (run : s.namePart = .ok g) :
    ∃ t, g = some ("name", .str t) := by
  simp only [namePart, bind_eq_ok, pure_eq_ok] at run
  obtain ⟨_, _, rfl⟩ := run
  exact ⟨_, rfl⟩

theorem versionPart_eq_ok {g : Option (String × Value)} (run : s.versionPart = .ok g) :
    ∃ t, g = some ("version", .str t) := by
  simp only [versionPart, bind_eq_ok, pure_eq_ok] at run
  obtain ⟨_, _, rfl⟩ := run
  exact ⟨_, rfl⟩

theorem loadPart_gives :
    s.loadPart.Gives [("load", fun v => v = .str "STARTUP" ∨ v = .str "POSTWORLD")] := by
  intro e run
  rw [loadPart, bind_eq_ok] at run
  obtain ⟨value, _, run⟩ := run
  cases value with
  | none => cases run
  | some t =>
    cases named : LoadOrder.ofText? t with
    | none => simp [named, throw, throwThe, MonadExceptOf.throw] at run
    | some order =>
      simp only [named, pure_eq_ok, Option.some.injEq] at run
      subst run
      refine Schema.offers_single ?_
      cases order with
      | startup => exact Or.inl rfl
      | postWorld => exact Or.inr rfl

theorem authorPart_gives : s.authorPart.Gives [("author", IsText), ("authors", IsList 2)] := by
  intro e run
  rw [authorPart, bind_eq_ok] at run
  obtain ⟨values, _, run⟩ := run
  match values with
  | [] => cases run
  | [a] =>
    cases run
    exact ⟨IsText, List.mem_cons_self .., a, rfl⟩
  | a :: b :: rest =>
    cases run
    exact ⟨IsList 2, List.mem_cons_of_mem _ (List.mem_singleton_self _), _, rfl, by simp⟩

theorem apiVersionPart_gives : s.apiVersionPart.Gives
    [("api-version", fun v => ∃ t, v = .str t ∧ ApiVersion.IsVersionText t)] := by
  intro e run
  rw [apiVersionPart, bind_eq_ok] at run
  obtain ⟨value, _, run⟩ := run
  cases value with
  | none => cases run
  | some target =>
    simp only [bind_eq_ok, pure_eq_ok] at run
    obtain ⟨version, asked, given⟩ := run
    obtain ⟨t, rfl, rfl⟩ := Option.map_eq_some_iff.1 given
    exact Schema.offers_single ⟨t, rfl, ApiVersion.isVersionText_of_ofTarget asked⟩

theorem registryPart_eq_ok {r : Registry} {key : String} {g : Option (String × Value)}
    (run : r.part key s.scanner s.entry = .ok g) :
    ∃ m, r.merge s.scanner s.entry = .ok m ∧ g = some (key, .ofMap m) := by
  simp only [Registry.part, bind_eq_ok, pure_eq_ok] at run
  obtain ⟨m, merged, rfl⟩ := run
  exact ⟨m, merged, rfl⟩

/-- The rows of the schema of a descriptor, with the two keys for authors in one slot. -/
def slots : List Schema :=
  [[("main", (· = .str s.declaration.qualifiedName))],
    [("name", IsText)],
    [("version", IsText)],
    [("description", IsText)],
    [("load", fun v => v = .str "STARTUP" ∨ v = .str "POSTWORLD")],
    [("author", IsText), ("authors", IsList 2)],
    [("website", IsText)],
    [("prefix", IsText)],
    [("libraries", IsList 1)],
    [("depend", IsList 1)],
    [("softdepend", IsList 1)],
    [("loadbefore", IsList 1)],
    [("commands", IsMap (Document.Each (IsMap Command.schema.Admits)))],
    [("permissions", IsMap (Document.Each (IsMap Permission.schema.Admits)))],
    [("api-version", fun v => ∃ t, v = .str t ∧ ApiVersion.IsVersionText t)]]

theorem slots_flatten : s.slots.flatten = Document.schema s.declaration.qualifiedName := rfl

theorem slots_nodup : (s.slots.flatten.map Prod.fst).Nodup := by
  rw [slots_flatten]
  simp [Document.schema]

theorem parts_gives : List.Forall₂ Part.Gives s.parts s.slots := by
  have main : Part.Gives (.ok (some ("main", .str s.declaration.qualifiedName)))
      [("main", (· = .str s.declaration.qualifiedName))] := by
    intro e run
    cases run
    exact Schema.offers_single rfl
  have name : s.namePart.Gives [("name", IsText)] := by
    intro e run
    obtain ⟨t, same⟩ := s.namePart_eq_ok run
    cases same
    exact Schema.offers_single ⟨t, rfl⟩
  have version : s.versionPart.Gives [("version", IsText)] := by
    intro e run
    obtain ⟨t, same⟩ := s.versionPart_eq_ok run
    cases same
    exact Schema.offers_single ⟨t, rfl⟩
  have commands : (Registry.commands.part "commands" s.scanner s.entry).Gives
      [("commands", IsMap (Document.Each (IsMap Command.schema.Admits)))] := by
    intro e run
    obtain ⟨m, merged, same⟩ := s.registryPart_eq_ok run
    cases same
    exact Schema.offers_single ⟨m, rfl, Registry.commands_each merged⟩
  have permissions : (Registry.permissions.part "permissions" s.scanner s.entry).Gives
      [("permissions", IsMap (Document.Each (IsMap Permission.schema.Admits)))] := by
    intro e run
    obtain ⟨m, merged, same⟩ := s.registryPart_eq_ok run
    cases same
    exact Schema.offers_single ⟨m, rfl, Registry.permissions_each merged⟩
  have metadata : List.Forall₂ Part.Gives s.metadata (s.slots.take 12) :=
    .cons main (.cons name (.cons version (.cons (s.textPart_gives _ _) (.cons s.loadPart_gives
      (.cons s.authorPart_gives (.cons (s.textPart_gives _ _) (.cons (s.textPart_gives _ _)
        (.cons (s.listPart_gives _ _) (.cons (s.listPart_gives _ _) (.cons (s.listPart_gives _ _)
          (.cons (s.listPart_gives _ _) .nil)))))))))))
  exact List.rel_append metadata (.cons commands (.cons permissions
    (.cons s.apiVersionPart_gives .nil)))

/-- No key is given twice. -/
theorem given_nodup {given : List (Option (String × Value))} (run : s.parts.mapM id = .ok given) :
    (Entries.keys (given.flatMap Option.toList)).Nodup := by
  have fits : Fits given s.slots := Fits.of_parts run s.parts_gives
  exact s.slots_nodup.sublist fits.keys_sublist

/-- Five keys have a part each that never leaves them out. -/
theorem parts_alwaysGive : ∀ key ∈ ["main", "name", "version", "commands", "permissions"],
    ∃ p ∈ s.parts, p.AlwaysGives key := by
  have main : Part.AlwaysGives (.ok (some ("main", .str s.declaration.qualifiedName))) "main" :=
    fun _ same => ⟨_, (Except.ok.inj same).symm⟩
  have name : s.namePart.AlwaysGives "name" := fun _ run =>
    have ⟨_, same⟩ := s.namePart_eq_ok run
    ⟨_, same⟩
  have version : s.versionPart.AlwaysGives "version" := fun _ run =>
    have ⟨_, same⟩ := s.versionPart_eq_ok run
    ⟨_, same⟩
  have registry (r : Registry) (key : String) :
      (r.part key s.scanner s.entry).AlwaysGives key := fun _ run =>
    have ⟨_, _, same⟩ := s.registryPart_eq_ok run
    ⟨_, same⟩
  simp only [List.forall_mem_cons, List.not_mem_nil, false_implies, implies_true, and_true]
  exact ⟨⟨_, by simp [parts, metadata], main⟩, ⟨_, by simp [parts, metadata], name⟩,
    ⟨_, by simp [parts, metadata], version⟩, ⟨_, by simp [parts], registry .commands _⟩,
    ⟨_, by simp [parts], registry .permissions _⟩⟩

end Source

/-- Every descriptor that is assembled is as its readers expect it, and is that of the declaration that
was chosen as the entry point. -/
theorem assemble_isDescriptor {s : Scanner} {o : Options} {doc : Document}
    (run : assemble s o.defaultVersion = .ok (some doc)) :
    ∃ h e, EntryPoint.choose s (s.scan .plugin) = .ok (some h) ∧ s.declaration h = some e ∧
      doc.IsDescriptor e.qualifiedName := by
  obtain ⟨h, e, chosen, found, given, read, rfl⟩ := assemble_eq_given.1 run
  refine ⟨h, e, chosen, found, ?_⟩
  let source : Source := ⟨s, h, e, o.defaultVersion⟩
  have fits : Fits given source.slots := Fits.of_parts read source.parts_gives
  have distinct := source.slots_nodup
  refine ⟨?_, ?_, ?_⟩
  · have admits := fits.admits distinct
    rwa [Source.slots_flatten] at admits
  · intro key required
    obtain ⟨p, member, always⟩ := source.parts_alwaysGive key required
    exact always.mem_keys read member
  · intro one several
    obtain ⟨v, inGiven⟩ := OrderedMap.mem_keys_ofList.1 one
    obtain ⟨w, inGiven'⟩ := OrderedMap.mem_keys_ofList.1 several
    have slot : [("author", Value.IsText), ("authors", Value.IsList 2)] ∈ source.slots := by
      simp [Source.slots]
    have same := fits.one distinct slot inGiven inGiven' (by simp) (by simp)
    exact absurd (congrArg Prod.fst same) (by simp)

/-- A program whose entry point says much of its plugin, and an executor with a command. -/
def Snapshot.talkative : Snapshot where
  declarations :=
    [{ qualifiedName := "demo.Land", kind := .interfaceType, enclosing := .package "demo",
       annotations := [⟨.command, [("name", .str "land"), ("aliases", .array [.str "l", .str "d"])]⟩] },
      { qualifiedName := "demo.Main", kind := .recordType, enclosing := .package "demo",
        annotations :=
          [⟨.plugin, [("name", .str "Demo"), ("main", .str "other.Main")]⟩,
            ⟨.author, [("value", .str "ann")]⟩, ⟨.author, [("value", .str "bob")]⟩,
            ⟨.loadOrder, [("value", .str "startup")]⟩, ⟨.apiVersion, [("value", .str "v1_20")]⟩,
            ⟨.permission, [("name", .str "demo.fly"), ("defaultValue", .str "not op"),
              ("children", .nested .childPermission [("name", .str "demo.land")])]⟩] }]

/-- Its descriptor. -/
def Document.talkative : Document where
  entries :=
    [("main", .str "demo.Main"), ("name", .str "Demo"), ("version", .str "v0.0"),
      ("load", .str "STARTUP"), ("authors", .list ["ann", "bob"]),
      ("commands", .map [("land", .map [("aliases", .list ["l", "d"])])]),
      ("permissions", .map [("demo.fly", .map [("default", .str "!op"),
        ("children", .map [("demo.land", .bool true)])])]),
      ("api-version", .str "1.20")]
  nodup_keys := by decide

theorem assemble_isDescriptor_talkative :
    assemble Snapshot.talkative.scanner ({} : Options).defaultVersion =
        .ok (some Document.talkative) ∧
      ∃ h e, EntryPoint.choose Snapshot.talkative.scanner
          (Snapshot.talkative.scanner.scan .plugin) = .ok (some h) ∧
        Snapshot.talkative.scanner.declaration h = some e ∧
        Document.talkative.IsDescriptor e.qualifiedName := by
  have run : assemble Snapshot.talkative.scanner ({} : Options).defaultVersion =
      .ok (some Document.talkative) := rfl
  exact ⟨run, assemble_isDescriptor run⟩

end PluginDescriptor
