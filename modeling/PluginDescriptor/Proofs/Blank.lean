import PluginDescriptor.Proofs.Metadata
import PluginDescriptor.Proofs.Schema

namespace PluginDescriptor

open AnnotationValue

/-- A text in which there is something to see. -/
def Value.IsVisibleText (v : Value) : Prop := ∃ t, v = .str t ∧ ¬ Text.IsBlankText t

namespace Document

/-- Under these keys stand visible texts, or nothing. -/
def ShowsAt (keys : List String) (d : Document) : Prop :=
  ∀ key ∈ keys, d.Allows key Value.IsVisibleText

/-- None of the texts that need not be there is blank. -/
structure ShowsNoBlank (d : Document) : Prop where
  own : d.ShowsAt ["description", "website", "prefix"]
  commands : d.Allows "commands" (Value.IsMap (Each (Value.IsMap
    (ShowsAt ["description", "permission", "permission-message", "usage"]))))
  permissions : d.Allows "permissions" (Value.IsMap (Each (Value.IsMap (ShowsAt ["description"]))))

end Document

/-- The texts of a command that need not be there, by the keys under which they are written. -/
def Command.texts (c : Command) : List (String × String) :=
  [("description", c.description), ("permission", c.permission),
    ("permission-message", c.permissionMessage), ("usage", c.usage)]

def Permission.texts (p : Permission) : List (String × String) := [("description", p.description)]

theorem Command.keys_texts (c : Command) : c.texts.map Prod.fst =
    ["description", "permission", "permission-message", "usage"] := rfl

theorem Permission.keys_texts (p : Permission) : p.texts.map Prod.fst = ["description"] := rfl

/-- Of these texts only the empty one is blank. -/
def NoneIsWhiteSpace (texts : List (String × String)) : Prop :=
  ∀ row ∈ texts, Text.IsBlankText row.2 → row.2 = ""

/-- The item is in the row, and none of that name comes after it. -/
def IsLastOfName {ι : Type} (name : ι → String) (row : List ι) (c : ι) : Prop :=
  ∃ before after, row = before ++ c :: after ∧ ∀ d ∈ after, name d ≠ name c

/-- The entry point's own texts that need not be there, each with the marker of which the first annotation
gives it. -/
def ownTexts : List (String × Marker) :=
  [("description", .description), ("website", .website), ("prefix", .logPrefix)]

namespace Document

/-- The map has these texts, as they are, but for the empty ones. -/
def Writes (texts : List (String × String)) (d : Document) : Prop :=
  ∀ row ∈ texts, d.get? row.1 = if row.2 = "" then none else some (.str row.2)

/-- Under the key stands a map in which every item that is the last of its name has its texts. -/
def WritesTexts {ι : Type} (d : Document) (key : String) (name : ι → String)
    (texts : ι → List (String × String)) (row : List ι) : Prop :=
  ∃ merged, d.get? key = some (.ofMap merged) ∧ ∀ c, IsLastOfName name row c →
    ∃ entry : Document, merged.get? (name c) = some (.ofMap entry) ∧ entry.Writes (texts c)

/-- What the descriptor holds of the texts that need not be there, if its metadata come from this source
and these are the commands and permissions of the program in the order of merging. -/
structure HoldsTexts (d : Document) (s : Source) (commands : List Command)
    (permissions : List Permission) : Prop where
  own : ∀ row ∈ ownTexts,
    d.get? row.1 = ((s.first? row.2 "value").bind visibleText?).map Value.str
  commands : d.WritesTexts "commands" Command.name Command.texts commands
  permissions : d.WritesTexts "permissions" Permission.name Permission.texts permissions

end Document

theorem getLast?_filter_name {ι : Type} {name : ι → String} {row : List ι} {key : String} {c : ι} :
    (row.filter (name · = key)).getLast? = some c ↔ name c = key ∧ IsLastOfName name row c := by
  rw [← List.head?_reverse, ← List.filter_reverse, List.head?_filter, List.find?_eq_some_iff_append,
    decide_eq_true_eq]
  refine and_congr_right fun named => ?_
  subst named
  constructor
  · rintro ⟨later, earlier, split, others⟩
    refine ⟨earlier.reverse, later.reverse, ?_, fun d member => ?_⟩
    · rw [← List.reverse_reverse row, split]
      simp
    · simpa using others d (List.mem_reverse.1 member)
  · rintro ⟨before, after, rfl, others⟩
    refine ⟨after.reverse, before.reverse, by simp, fun d member => ?_⟩
    simpa using others d (List.mem_reverse.1 member)

theorem Value.ofMap_injective {m n : Document} (same : Value.ofMap m = .ofMap n) : m = n :=
  OrderedMap.ext (Value.map.inj same)

namespace Document

theorem get?_empty (key : String) : OrderedMap.get? (∅ : Document) key = none := rfl

theorem get?_putText (d : Document) (key text k : String) :
    (d.putText key text).get? k = if k = key ∧ text ≠ "" then some (.str text) else d.get? k := by
  unfold putText
  split
  · next empty => simp [empty]
  · next filled => simp [OrderedMap.get?_insert, filled]

/-- Where texts are written unless they are empty, all that is shown is visible if none of them is white
space. -/
theorem Writes.showsAt_iff {d : Document} {texts : List (String × String)} (written : d.Writes texts) :
    d.ShowsAt (texts.map Prod.fst) ↔ NoneIsWhiteSpace texts := by
  unfold ShowsAt NoneIsWhiteSpace
  rw [List.forall_mem_map]
  refine forall₂_congr fun row member => ?_
  unfold Allows Value.IsVisibleText
  rw [written row member]
  by_cases empty : row.2 = ""
  · simp [empty]
  · simp [empty]

end Document

theorem Command.entry_writes (c : Command) : c.entry.Writes c.texts := by
  unfold Document.Writes entry
  cases aliasesValue c.aliases with
  | none => simp [texts, Document.get?_putText, Document.get?_empty]
  | some v =>
    have start : OrderedMap.empty.insert "aliases" v = (∅ : Document).insert "aliases" v := rfl
    simp [start, texts, Document.get?_putText, OrderedMap.get?_insert, Document.get?_empty]

theorem Permission.entry_writes (p : Permission) : p.entry.Writes p.texts := by
  have described : OrderedMap.get? (Document.putText ∅ "description" p.description) "description" =
      if p.description = "" then none else some (.str p.description) := by
    simp [Document.get?_putText, Document.get?_empty]
  have later (d : Document) (key : String) (v : Value) (other : key ≠ "description") :
      (d.insert key v).get? "description" = d.get? "description" := by
    rw [OrderedMap.get?_insert, if_neg other.symm]
  rw [Document.Writes, texts, List.forall_mem_singleton, ← described]
  unfold entry
  split <;> split <;> simp [later]

theorem Document.allows_iff {d : Document} {key : String} {m : Document}
    (found : d.get? key = some (.ofMap m)) {P : Document → Prop} :
    d.Allows key (Value.IsMap P) ↔ P m := by
  constructor
  · intro allows
    obtain ⟨n, same, holds⟩ := allows _ found
    exact Value.ofMap_injective same ▸ holds
  · intro holds v other
    cases found.symm.trans other
    exact ⟨m, rfl, holds⟩

namespace Registry.Flattened

variable {ι : Type} {name : ι → String} {entry : ι → Document} {external own : List ι}
  {merged : Document}

theorem get?_name (flat : Flattened name entry external own merged) {c : ι}
    (last : IsLastOfName name (external ++ own) c) :
    merged.get? (name c) = some (.ofMap (entry c)) := by
  rw [flat.value, getLast?_filter_name.2 ⟨rfl, last⟩]
  rfl

/-- What is said of everything that was merged is said of the last item of every name. -/
theorem each_iff (flat : Flattened name entry external own merged) {P : Document → Prop} :
    merged.Each (Value.IsMap P) ↔ ∀ c, IsLastOfName name (external ++ own) c → P (entry c) := by
  constructor
  · intro each c last
    obtain ⟨m, same, holds⟩ := each _ _ (flat.get?_name last)
    exact Value.ofMap_injective same ▸ holds
  · intro all key v found
    rw [flat.value, Option.map_eq_some_iff] at found
    obtain ⟨c, last, rfl⟩ := found
    exact ⟨entry c, rfl, all c (getLast?_filter_name.1 last).2⟩

variable {texts : ι → List (String × String)} (writes : ∀ c, (entry c).Writes (texts c))
  {doc : Document} {key : String}

include writes

theorem writesTexts (flat : Flattened name entry external own merged)
    (found : doc.get? key = some (.ofMap merged)) :
    doc.WritesTexts key name texts (external ++ own) :=
  ⟨merged, found, fun c last => ⟨entry c, flat.get?_name last, writes c⟩⟩

theorem allows_showsAt_iff (flat : Flattened name entry external own merged)
    (found : doc.get? key = some (.ofMap merged)) {keys : List String}
    (named : ∀ c, (texts c).map Prod.fst = keys) :
    doc.Allows key (Value.IsMap (Document.Each (Value.IsMap (Document.ShowsAt keys)))) ↔
      ∀ c, IsLastOfName name (external ++ own) c → NoneIsWhiteSpace (texts c) := by
  rw [Document.allows_iff found, flat.each_iff]
  refine forall₂_congr fun c _ => ?_
  rw [← named c]
  exact (writes c).showsAt_iff

end Registry.Flattened

/-- What a descriptor that was filled holds of the texts that need not be there: each of the entry point's
own if it is visible, and the two maps that were merged. -/
theorem Source.get?_of_parts {s : Source} {given : List (Option (String × Value))}
    (read : s.parts.mapM id = .ok given) {doc : Document}
    (filled : doc = .ofList (given.flatMap Option.toList)) :
    (∀ row ∈ ownTexts, doc.get? row.1 =
      ((s.first? row.2 "value").bind visibleText?).map Value.str) ∧
    ∃ commands permissions, Registry.commands.merge s.scanner s.entry = .ok commands ∧
      Registry.permissions.merge s.scanner s.entry = .ok permissions ∧
      doc.get? "commands" = some (.ofMap commands) ∧
      doc.get? "permissions" = some (.ofMap permissions) := by
  have fits : Fits given s.slots := Fits.of_parts read s.parts_gives
  obtain ⟨metadata, commands, permissions, version, own, first, second, _, rfl⟩ :=
    Source.parts_eq_ok.1 read
  cases Part.given_of_obeys s.metadata_obeys own
  -- a key is told by its place among the slots
  have under {g : Option (String × Value)} {key : String} {P : Value → Prop} (i : Nat)
      (pair : (List.zip (s.rules.map (·.given) ++ [some ("commands", .ofMap commands),
        some ("permissions", .ofMap permissions), version]) s.slots)[i]? = some (g, [(key, P)])) :
      doc.get? key = g.map Prod.snd := by
    rw [filled]
    exact fits.get?_eq s.slots_nodup (List.mem_of_getElem? pair)
  have text (key : String) (marker : Marker) :
      (s.firstRule key marker "value" (·.map .str)).given.map Prod.snd =
        ((s.first? marker "value").bind visibleText?).map Value.str := by
    simp [firstRule, Function.comp_def]
  refine ⟨?_, commands, permissions, first, second, under 12 rfl, under 13 rfl⟩
  simp only [ownTexts, List.forall_mem_cons, List.not_mem_nil, false_implies, implies_true, and_true]
  exact ⟨(under 3 rfl).trans (text _ _), (under 6 rfl).trans (text _ _),
    (under 7 rfl).trans (text _ _)⟩

theorem Source.showsAt_ownTexts {s : Source} {doc : Document} (own : ∀ row ∈ ownTexts,
      doc.get? row.1 = ((s.first? row.2 "value").bind visibleText?).map Value.str) :
    doc.ShowsAt (ownTexts.map Prod.fst) := by
  refine List.forall_mem_map.2 fun row member v found => ?_
  rw [own row member, Option.map_eq_some_iff] at found
  obtain ⟨t, visible, rfl⟩ := found
  obtain ⟨w, _, shown⟩ := Option.bind_eq_some_iff.1 visible
  exact ⟨t, rfl, (visibleText?_eq_some.1 shown).2⟩

/-- A descriptor that was assembled has the entry point's own texts if they are visible, and those of
commands and permissions if they are not empty. So no text that need not be there is blank, except that
a command or a permission which no later one of its name replaces may have a text of white space. -/
theorem assemble_showsNoBlank_iff {s : Snapshot} {o : Options} {doc : Document}
    (run : assemble s.scanner o.defaultVersion = .ok (some doc)) :
    ∃ h e commands permissions,
      EntryPoint.choose s.scanner (s.scanner.scan .plugin) = .ok (some h) ∧
      s.scanner.declaration h = some e ∧
      ReadAs .command Command.ofAnnotation
        (s.recordsBeside h .command ++ s.scanner.records h .command) commands ∧
      ReadAs .permission Permission.ofAnnotation
        (s.recordsBeside h .permission ++ s.scanner.records h .permission) permissions ∧
      doc.HoldsTexts ⟨s.scanner, h, e, o.defaultVersion⟩ commands permissions ∧
      doc.ShowsAt ["description", "website", "prefix"] ∧
      (doc.ShowsNoBlank ↔
        (∀ c, IsLastOfName Command.name commands c → NoneIsWhiteSpace c.texts) ∧
        ∀ p, IsLastOfName Permission.name permissions p → NoneIsWhiteSpace p.texts) := by
  obtain ⟨h, e, chosen, found, given, read, filled⟩ := assemble_eq_given.1 run
  obtain ⟨own, commands, permissions, first, second, atCommands, atPermissions⟩ :=
    Source.get?_of_parts read filled
  obtain ⟨_, _, beside, ofEntry, flat⟩ :=
    Registry.merge_flattened_of_item (r := .commands) rfl rfl first
  obtain ⟨_, _, beside', ofEntry', flat'⟩ :=
    Registry.merge_flattened_of_item (r := .permissions) rfl rfl second
  have ownShown := Source.showsAt_ownTexts own
  have holds : doc.HoldsTexts ⟨s.scanner, h, e, o.defaultVersion⟩ _ _ :=
    { own
      commands := flat.writesTexts Command.entry_writes atCommands
      permissions := flat'.writesTexts Permission.entry_writes atPermissions }
  refine ⟨h, e, _, _, chosen, found, readAs_append.2 ⟨_, _, beside, ofEntry, rfl⟩,
    readAs_append.2 ⟨_, _, beside', ofEntry', rfl⟩, holds, ownShown, ?_⟩
  rw [← flat.allows_showsAt_iff Command.entry_writes atCommands Command.keys_texts,
    ← flat'.allows_showsAt_iff Permission.entry_writes atPermissions Permission.keys_texts]
  exact ⟨fun shows => ⟨shows.commands, shows.permissions⟩,
    fun ⟨commands, permissions⟩ => ⟨ownShown, commands, permissions⟩⟩

/-- A program whose entry point says of its website, and of a command, nothing that can be seen. -/
def Snapshot.taciturn : Snapshot where
  declarations :=
    [{ qualifiedName := "demo.Main", kind := .classType, enclosing := .package "demo",
       annotations :=
        [⟨.plugin, []⟩, ⟨.website, [("value", .str " ")]⟩,
          ⟨.command, [("name", .str "fly"), ("desc", .str " "), ("usage", .str "")]⟩] }]

/-- Its descriptor. -/
def Document.taciturn : Document where
  entries :=
    [("main", .str "demo.Main"), ("name", .str "Main"), ("version", .str "v0.0"),
      ("commands", .map [("fly", .map [("description", .str " ")])]), ("permissions", .map [])]
  nodup_keys := by decide

theorem assemble_showsNoBlank_iff_taciturn :
    assemble Snapshot.taciturn.scanner ({} : Options).defaultVersion = .ok (some Document.taciturn) ∧
    ∃ h e commands permissions,
      EntryPoint.choose Snapshot.taciturn.scanner (Snapshot.taciturn.scanner.scan .plugin) =
        .ok (some h) ∧
      Snapshot.taciturn.scanner.declaration h = some e ∧
      ReadAs .command Command.ofAnnotation (Snapshot.taciturn.recordsBeside h .command ++
        Snapshot.taciturn.scanner.records h .command) commands ∧
      ReadAs .permission Permission.ofAnnotation (Snapshot.taciturn.recordsBeside h .permission ++
        Snapshot.taciturn.scanner.records h .permission) permissions ∧
      Document.taciturn.HoldsTexts
        ⟨Snapshot.taciturn.scanner, h, e, ({} : Options).defaultVersion⟩ commands permissions ∧
      Document.taciturn.ShowsAt ["description", "website", "prefix"] ∧
      (Document.taciturn.ShowsNoBlank ↔
        (∀ c, IsLastOfName Command.name commands c → NoneIsWhiteSpace c.texts) ∧
        ∀ p, IsLastOfName Permission.name permissions p → NoneIsWhiteSpace p.texts) := by
  have run : assemble Snapshot.taciturn.scanner ({} : Options).defaultVersion =
      .ok (some Document.taciturn) := rfl
  exact ⟨run, assemble_showsNoBlank_iff run⟩

/-- The description of a command can be blank in a descriptor. -/
theorem assemble_shows_blank :
    assemble Snapshot.taciturn.scanner ({} : Options).defaultVersion = .ok (some Document.taciturn) ∧
      ¬ Document.taciturn.ShowsNoBlank := by
  refine ⟨rfl, fun shows => ?_⟩
  let fly : Document := .ofList [("description", .str " ")]
  let commands : Document := .ofList [("fly", .ofMap fly)]
  have atCommands : Document.taciturn.get? "commands" = some (.ofMap commands) := rfl
  have atFly : commands.get? "fly" = some (.ofMap fly) := rfl
  have atDescription : fly.get? "description" = some (.str " ") := rfl
  have ofFly := (Document.allows_iff atFly).1 ((Document.allows_iff atCommands).1 shows.commands "fly")
  obtain ⟨_, ⟨⟩, visible⟩ := ofFly "description" (by simp) _ atDescription
  exact visible (by decide)

end PluginDescriptor
