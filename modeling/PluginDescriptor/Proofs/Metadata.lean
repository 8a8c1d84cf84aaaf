import Mathlib.Data.List.DropRight
import Mathlib.Data.List.Flatten
import PluginDescriptor.Proofs.Assembled
import PluginDescriptor.Proofs.Failure

namespace PluginDescriptor

open AnnotationValue

/-- The text comes after the last point of the name, or is the name if there is no point. -/
def IsLastSegment (name t : String) : Prop :=
  '.' ∉ t.toList ∧ (name = t ∨ ∃ before, name = before ++ "." ++ t)

theorem Declaration.simpleName_isLastSegment (d : Declaration) :
    IsLastSegment d.qualifiedName d.simpleName := by
  have segment : d.simpleName.toList = d.qualifiedName.toList.rtakeWhile (· ≠ '.') :=
    String.toList_ofList
  have whole := List.rdropWhile_append_rtakeWhile (p := (· ≠ '.')) (l := d.qualifiedName.toList)
  refine ⟨fun inside => ?_, ?_⟩
  · rw [segment] at inside
    simpa using List.mem_rtakeWhile_imp inside
  by_cases bare : d.qualifiedName.toList.rdropWhile (· ≠ '.') = []
  · rw [bare, List.nil_append, ← segment] at whole
    exact Or.inl (String.toList_inj.1 whole.symm)
  · have point := List.rdropWhile_last_not (· ≠ '.') d.qualifiedName.toList bare
    rw [← List.dropLast_append_getLast bare, ← segment] at whole
    simp only [ne_eq, decide_not, Bool.not_eq_true', decide_eq_false_iff_not, not_not] at point
    refine Or.inr ⟨String.ofList (d.qualifiedName.toList.rdropWhile (· ≠ '.')).dropLast, ?_⟩
    refine String.toList_inj.1 (whole.symm.trans ?_)
    simp [point]

/-- What one key of a descriptor comes to, or several keys of which one is written at most. -/
structure KeyRule where
  keys : List String
  /-- What the key is read from is well formed. -/
  Sound : Prop
  /-- What is written if it is. -/
  given : Option (String × Value)
  /-- The fault that is reported if it is not. -/
  Reports : Fault → Prop
  keyed : ∀ e, given = some e → e.1 ∈ keys

/-- The part gives what the rule says, or fails as it says. -/
def Part.Obeys (p : Part) (rule : KeyRule) : Prop :=
  rule.Sound ∧ p = .ok rule.given ∨ ¬ rule.Sound ∧ ∃ e, p = .error e ∧ rule.Reports e

theorem Document.fill_given (d : Document) (rules : List KeyRule) (rest : List Part) :
    d.fill (rules.map (fun rule => .ok rule.given) ++ rest) =
      Document.fill (d.insertAll (rules.filterMap (·.given))) rest := by
  induction rules generalizing d with
  | nil => rfl
  | cons rule rules ih =>
    rw [List.map_cons, List.cons_append, fill_ok, ih, ← OrderedMap.insertAll_append]
    cases given : rule.given <;> simp [given]

/-- Parts that obey their rules give all that these say, or everything up to the first rule that is
broken. -/
theorem Part.obeys_cases {parts : List Part} {rules : List KeyRule}
    (obey : List.Forall₂ Part.Obeys parts rules) :
    (∀ rule ∈ rules, rule.Sound) ∧ parts = rules.map (fun rule => .ok rule.given) ∨
      ∃ before rule after e rest, rules = before ++ rule :: after ∧ (∀ r ∈ before, r.Sound) ∧
        ¬ rule.Sound ∧ rule.Reports e ∧
        parts = before.map (fun rule => .ok rule.given) ++ .error e :: rest := by
  induction obey with
  | nil => simp
  | @cons p rule parts rules first _ ih =>
    rcases first with ⟨sound, rfl⟩ | ⟨broken, e, rfl, reports⟩
    · rcases ih with ⟨all, rfl⟩ | ⟨before, broken, after, e, rest, rfl, all, not, reports, rfl⟩
      · exact Or.inl ⟨List.forall_mem_cons.2 ⟨sound, all⟩, rfl⟩
      · exact Or.inr ⟨rule :: before, broken, after, e, rest, rfl,
          List.forall_mem_cons.2 ⟨sound, all⟩, not, reports, rfl⟩
    · exact Or.inr ⟨[], rule, rules, e, parts, rfl, by simp, broken, reports, rfl⟩

/-- Parts that obey their rules give what these say if all of them can be read. -/
theorem Part.given_of_obeys {parts : List Part} {rules : List KeyRule}
    (obey : List.Forall₂ Part.Obeys parts rules) {given : List (Option (String × Value))}
    (read : parts.mapM id = .ok given) : given = rules.map (·.given) := by
  rw [mapM_eq_ok] at read
  induction obey generalizing given with
  | nil =>
    cases read
    rfl
  | cons first _ ih =>
    cases read with
    | cons head rest =>
      rcases first with ⟨_, rfl⟩ | ⟨_, e, rfl, _⟩
      · cases head
        rw [ih rest, List.map_cons]
      · cases head

theorem KeyRule.keys_filterMap_sublist (rules : List KeyRule) :
    (Entries.keys (rules.filterMap (·.given))).Sublist (rules.flatMap (·.keys)) := by
  induction rules with
  | nil => exact .slnil
  | cons rule rules ih =>
    rw [List.flatMap_cons, List.filterMap_cons]
    cases given : rule.given with
    | none => exact ih.trans (List.sublist_append_right ..)
    | some e => exact (List.singleton_sublist.2 (rule.keyed e given)).append ih

/-- Filling an empty descriptor writes what the rules say, all of it or everything up to the first rule
that is broken. -/
theorem Document.fill_obeys {parts : List Part} {rules : List KeyRule}
    (obey : List.Forall₂ Part.Obeys parts rules) (distinct : (rules.flatMap (·.keys)).Nodup) :
    (∃ doc, Document.fill ∅ parts = (doc, none) ∧ (∀ rule ∈ rules, rule.Sound) ∧
      doc.entries = rules.filterMap (·.given)) ∨
    ∃ before rule after e doc, Document.fill ∅ parts = (doc, some e) ∧
      rules = before ++ rule :: after ∧ (∀ r ∈ before, r.Sound) ∧ ¬ rule.Sound ∧ rule.Reports e ∧
      doc.entries = before.filterMap (·.given) := by
  have nodup {l : List KeyRule} (sublist : l.Sublist rules) :
      (Entries.keys (l.filterMap (·.given))).Nodup :=
    distinct.sublist ((KeyRule.keys_filterMap_sublist l).trans (sublist.flatMap _))
  rcases Part.obeys_cases obey with ⟨all, rfl⟩ |
    ⟨before, rule, after, e, rest, rfl, all, broken, reports, rfl⟩
  · refine Or.inl ⟨.ofList (rules.filterMap (·.given)), ?_, all, ?_⟩
    · rw [← List.append_nil (rules.map _), fill_given]
      rfl
    · exact OrderedMap.entries_ofList (nodup (List.Sublist.refl _))
  · refine Or.inr ⟨before, rule, after, e, .ofList (before.filterMap (·.given)), ?_, rfl, all, broken,
      reports, ?_⟩
    · rw [fill_given]
      rfl
    · exact OrderedMap.entries_ofList (nodup (List.sublist_append_left ..))

/-- The text that a value is, unless it is blank. -/
def AnnotationValue.visibleText? : AnnotationValue → Option String
  | .str t => if Text.IsBlankText t then none else some t
  | _ => none

/-- The text that a value is. -/
def AnnotationValue.text? : AnnotationValue → Option String
  | .str t => some t
  | _ => none

/-- One author stands by itself, several form a list under another key. -/
def authorGiven : List String → Option (String × Value)
  | [] => none
  | [a] => some ("author", .str a)
  | several => some ("authors", .list several)

/-- A list under a key, unless it is empty. -/
def listGiven (key : String) : List String → Option (String × Value)
  | [] => none
  | items => some (key, .list items)

namespace Source

variable (s : Source)

/-- The annotations of the entry point; if the scanner does not know it there are none. -/
def annotations : List Annotation := (s.scanner.declaration s.entry).elim [] (·.annotations)

/-- A field of the first annotation with a marker. -/
def first? (marker : Marker) (field : String) : Option AnnotationValue :=
  (s.annotations.find? (·.marker == marker)).bind (·.field? field)

/-- The annotations with a marker in their order. -/
def all (marker : Marker) : List Annotation := s.annotations.filter (·.marker == marker)

/-- One text for each annotation with a marker, in their order: what stands in its `value`. -/
def texts (marker : Marker) : List String :=
  (s.all marker).map fun a => ((a.field? "value").bind AnnotationValue.text?).getD ""

/-- A key that is read from a field of the first annotation with a marker: the field has to be a text or
unset, and a blank text counts as unset. -/
def firstRule (key : String) (marker : Marker) (field : String)
    (value : Option String → Option Value) : KeyRule where
  keys := [key]
  Sound := ∀ v, s.first? marker field = some v → v.IsText
  given := (value ((s.first? marker field).bind visibleText?)).map (Prod.mk key)
  Reports e := ∃ v, s.first? marker field = some v ∧ ¬ v.IsText ∧
    e = .invalidValue marker field v.describe
  keyed := by simp +contextual [eq_comm]

/-- The time of loading is read likewise, and a text that is not blank has to name one. It is written in
upper case. -/
def loadRule : KeyRule where
  keys := ["load"]
  Sound := ∀ v, s.first? .loadOrder "value" = some v →
    v.IsBlankOr fun t => LoadOrder.upper t = "STARTUP" ∨ LoadOrder.upper t = "POSTWORLD"
  given := ((s.first? .loadOrder "value").bind visibleText?).map fun t =>
    ("load", .str (LoadOrder.upper t))
  Reports e := ∃ v, s.first? .loadOrder "value" = some v ∧
    ((∃ t, v = .str t ∧ e = .invalidValue .loadOrder "value" t) ∨
      ¬ v.IsText ∧ e = .invalidValue .loadOrder "value" v.describe)
  keyed e given := by
    obtain ⟨t, _, rfl⟩ := Option.map_eq_some_iff.1 given
    simp

/-- Keys that are read from all annotations with a marker, each of which has to have a text. The first
that has none is reported. -/
def allRule (keys : List String) (marker : Marker)
    (given : List String → Option (String × Value)) (keyed : ∀ l e, given l = some e → e.1 ∈ keys) :
    KeyRule where
  keys := keys
  Sound := ∀ a ∈ s.all marker, a.Requires "value" IsText
  given := given (s.texts marker)
  Reports e := ∃ before a after, s.all marker = before ++ a :: after ∧
    (∀ b ∈ before, b.Requires "value" IsText) ∧
    (a.field? "value" = none ∧ e = .missingField marker "value" ∨
      ∃ v, a.field? "value" = some v ∧ ¬ v.IsText ∧ e = .invalidValue marker "value" v.compact)
  keyed := keyed _

def authorRule : KeyRule :=
  s.allRule ["author", "authors"] .author authorGiven
    (by rintro (_ | ⟨a, _ | _⟩) e given <;> cases given <;> simp)

def listRule (key : String) (marker : Marker) : KeyRule :=
  s.allRule [key] marker (listGiven key) (by rintro (_ | _) e given <;> cases given; simp)

/-- The rules of all keys up to the commands, in the order of the descriptor. -/
def rules : List KeyRule :=
  [⟨["main"], True, some ("main", .str s.declaration.qualifiedName), fun _ => False, by simp⟩,
    s.firstRule "name" .plugin "name" fun t => some (.str (t.getD s.declaration.simpleName)),
    s.firstRule "version" .plugin "version" fun t => some (.str (t.getD s.defaultVersion)),
    s.firstRule "description" .description "value" (·.map .str),
    s.loadRule,
    s.authorRule,
    s.firstRule "website" .website "value" (·.map .str),
    s.firstRule "prefix" .logPrefix "value" (·.map .str),
    s.listRule "libraries" .library,
    s.listRule "depend" .dependency,
    s.listRule "softdepend" .softDependency,
    s.listRule "loadbefore" .loadBefore]

end Source

theorem AnnotationValue.visibleText?_eq_some {v : AnnotationValue} {t : String} :
    v.visibleText? = some t ↔ v = .str t ∧ ¬ Text.IsBlankText t := by
  cases v with
  | str u =>
    simp only [visibleText?, Option.ite_none_left_eq_some, Option.some.injEq, str.injEq]
    grind
  | bool | array | nested => simp [visibleText?]

theorem LoadOrder.name_of_ofText? {t : String} {order : LoadOrder} (named : ofText? t = some order) :
    upper t = order.name := by
  unfold ofText? at named
  have same := List.find?_some named
  exact (beq_iff_eq.1 same).symm

theorem LoadOrder.ofText?_eq_none {t : String} :
    ofText? t = none ↔ ¬ (upper t = "STARTUP" ∨ upper t = "POSTWORLD") := by
  rw [ofText?, List.find?_eq_none, @eq_comm _ _ "STARTUP", @eq_comm _ _ "POSTWORLD"]
  simp [name]

theorem Annotation.requiredText_eq_error {a : Annotation} {name : String} {e : Fault} :
    a.requiredText name = .error e ↔ a.field? name = none ∧ e = .missingField a.marker name ∨
      ∃ v, a.field? name = some v ∧ ¬ v.IsText ∧ e = a.invalid name v := by
  unfold requiredText text?
  cases a.field? name with
  | none => simp [eq_comm]
  | some v => cases v <;> simp [IsText, eq_comm]

/-- A marker that has no container is read from the annotations that have it. -/
theorem Declaration.instances_of_bare {d : Declaration} {marker : Marker}
    (bare : marker.container? = none) :
    d.instances marker = .ok (d.annotations.filter (·.marker == marker)) := by
  refine instances_eq_ok.2 ⟨?_, fun b member => by simpa using (List.mem_filter.1 member).2⟩
  unfold records
  induction d.annotations with
  | nil => rfl
  | cons a rest ih =>
    rw [List.flatMap_cons, ih, recordsIn, bare, List.filter_cons]
    by_cases same : a.marker = marker <;> simp [same]

namespace Source

variable {s : Source} {marker : Marker} {field : String}

theorem field?_eq_first? (s : Source) (marker : Marker) (field : String) :
    s.scanner.field? s.entry marker field = s.first? marker field := by
  unfold Scanner.field? Scanner.firstInstance? first? annotations
  cases s.scanner.declaration s.entry with
  | none => rfl
  | some d => cases same : d.annotations.find? (·.marker == marker) <;> simp [same]

theorem scalar?_cases (s : Source) (marker : Marker) (field : String) :
    (∀ v, s.first? marker field = some v → v.IsText) ∧
        s.scalar? marker field = .ok ((s.first? marker field).bind visibleText?) ∨
      ∃ v, s.first? marker field = some v ∧ ¬ v.IsText ∧
        s.scalar? marker field = .error (.invalidValue marker field v.describe) := by
  unfold scalar?
  rw [field?_eq_first?]
  cases s.first? marker field with
  | none => exact Or.inl ⟨nofun, rfl⟩
  | some v =>
    cases v with
    | str t =>
      refine Or.inl ⟨fun v same => ⟨t, (Option.some.inj same).symm⟩, ?_⟩
      have blank : t.toList.all Text.isBlank = true ↔ Text.IsBlankText t := List.all_eq_true
      by_cases h : Text.IsBlankText t
      · simp [visibleText?, blank.2 h, h]
      · simp only [mt blank.1 h, Option.bind_some, visibleText?, if_neg h]
        rfl
    | bool | array | nested => exact Or.inr ⟨_, rfl, by simp [IsText], rfl⟩

theorem obeys_firstRule (s : Source) (key : String) (marker : Marker) (field : String)
    (value : Option String → Option Value) :
    Part.Obeys (do return (value (← s.scalar? marker field)).map (Prod.mk key))
      (s.firstRule key marker field value) := by
  rcases scalar?_cases s marker field with ⟨text, read⟩ | ⟨v, set, noText, read⟩
  · exact Or.inl ⟨text, by rw [read]; rfl⟩
  · exact Or.inr ⟨fun sound => noText (sound v set), _, by rw [read]; rfl, v, set, noText, rfl⟩

theorem textPart_obeys (s : Source) (key : String) (marker : Marker) :
    Part.Obeys (s.textPart key marker) (s.firstRule key marker "value" (·.map .str)) := by
  have same : s.textPart key marker = (do
      return ((← s.scalar? marker "value").map Value.str).map (Prod.mk key)) := by
    simp only [textPart, Option.map_map, Function.comp_def]
  rw [same]
  exact obeys_firstRule s key marker "value" (·.map .str)

theorem loadPart_obeys (s : Source) : s.loadPart.Obeys s.loadRule := by
  unfold loadPart
  rcases scalar?_cases s .loadOrder "value" with ⟨text, read⟩ | ⟨v, set, noText, read⟩
  · rw [read]
    cases visible : (s.first? .loadOrder "value").bind visibleText? with
    | none =>
      have given : s.loadRule.given = none := congrArg (Option.map _) visible
      refine Or.inl ⟨fun v set => ?_, by rw [given]; rfl⟩
      obtain ⟨t, rfl⟩ := text v set
      rw [set, Option.bind_some, Option.eq_none_iff_forall_ne_some] at visible
      refine ⟨t, rfl, Or.inl ?_⟩
      by_contra filled
      exact visible t (visibleText?_eq_some.2 ⟨rfl, filled⟩)
    | some t =>
      have given : s.loadRule.given = some ("load", .str (LoadOrder.upper t)) :=
        congrArg (Option.map _) visible
      obtain ⟨v, set, shown⟩ := Option.bind_eq_some_iff.1 visible
      obtain ⟨rfl, filled⟩ := visibleText?_eq_some.1 shown
      simp only [bind, Except.bind]
      cases named : LoadOrder.ofText? t with
      | none =>
        refine Or.inr ⟨fun sound => ?_, _, rfl, _, set, Or.inl ⟨t, rfl, rfl⟩⟩
        obtain ⟨_, ⟨⟩, blank | order⟩ := sound _ set
        · exact filled blank
        · exact LoadOrder.ofText?_eq_none.1 named order
      | some order =>
        have upper := LoadOrder.name_of_ofText? named
        have either : order.name = "STARTUP" ∨ order.name = "POSTWORLD" := by cases order <;> decide
        refine Or.inl ⟨fun v same => ?_, by rw [given, upper]; rfl⟩
        cases set.symm.trans same
        rw [← upper] at either
        exact ⟨t, rfl, Or.inr either⟩
  · refine Or.inr ⟨fun sound => ?_, _, by rw [read]; rfl, v, set, Or.inr ⟨noText, rfl⟩⟩
    obtain ⟨t, rfl, _⟩ := sound v set
    exact noText ⟨t, rfl⟩

/-- The values of a marker that has no container are the texts of the annotations that have it. -/
theorem values_eq_mapM (s : Source) (bare : marker.container? = none) :
    s.values marker = (s.all marker).mapM (·.requiredText "value") := by
  have known : s.scanner.instances s.entry marker = .ok (s.all marker) := by
    unfold Scanner.instances all annotations
    cases s.scanner.declaration s.entry with
    | none => rfl
    | some d => exact Declaration.instances_of_bare bare
  rw [values, known]
  rfl

theorem values_eq_texts (bare : marker.container? = none)
    (sound : ∀ a ∈ s.all marker, a.Requires "value" IsText) :
    s.values marker = .ok (s.texts marker) := by
  rw [values_eq_mapM s bare, mapM_eq_ok, texts, List.forall₂_map_right_iff, List.forall₂_same]
  intro a member
  obtain ⟨_, set, t, rfl⟩ := sound a member
  refine Annotation.requiredText_eq_ok.2 ?_
  rw [set]
  rfl

theorem obeys_allRule (s : Source) (bare : marker.container? = none) {keys : List String}
    {given : List String → Option (String × Value)} (keyed : ∀ l e, given l = some e → e.1 ∈ keys) :
    Part.Obeys (do return given (← s.values marker)) (s.allRule keys marker given keyed) := by
  by_cases sound : ∀ a ∈ s.all marker, a.Requires "value" IsText
  · exact Or.inl ⟨sound, by rw [values_eq_texts bare sound]; rfl⟩
  · refine Or.inr ⟨sound, ?_⟩
    simp only [← Annotation.succeeds_requiredText, ← succeeds_mapM, not_succeeds_iff,
      mapM_eq_error] at sound
    obtain ⟨e, fails⟩ := sound
    refine ⟨e, by rw [values_eq_mapM s bare, mapM_eq_error.2 fails]; rfl, ?_⟩
    obtain ⟨before, a, after, split, passed, failed⟩ := fails
    have marked : a.marker = marker := by
      have member : a ∈ s.all marker := by simp [split]
      simpa using (List.mem_filter.1 member).2
    simp only [marked, Annotation.requiredText_eq_error, Annotation.invalid] at failed
    exact ⟨before, a, after, split,
      fun b member => Annotation.succeeds_requiredText.1 (passed b member), failed⟩

theorem authorPart_obeys (s : Source) : s.authorPart.Obeys s.authorRule := by
  have same : s.authorPart = (do return authorGiven (← s.values .author)) :=
    bind_congr fun l => by rcases l with _ | ⟨_, _ | _⟩ <;> rfl
  rw [same]
  exact obeys_allRule s rfl _

theorem listPart_obeys (s : Source) (key : String) (bare : marker.container? = none) :
    Part.Obeys (s.listPart key marker) (s.listRule key marker) := by
  have same : s.listPart key marker = (do return listGiven key (← s.values marker)) :=
    bind_congr fun l => by cases l <;> rfl
  rw [same]
  exact obeys_allRule s bare _

theorem metadata_obeys (s : Source) : List.Forall₂ Part.Obeys s.metadata s.rules := by
  have name : s.namePart.Obeys _ := obeys_firstRule s "name" .plugin "name"
    fun t => some (.str (t.getD s.declaration.simpleName))
  have version : s.versionPart.Obeys _ := obeys_firstRule s "version" .plugin "version"
    fun t => some (.str (t.getD s.defaultVersion))
  exact .cons (Or.inl ⟨trivial, rfl⟩) (.cons name (.cons version
    (.cons (textPart_obeys s _ _) (.cons s.loadPart_obeys (.cons s.authorPart_obeys
    (.cons (textPart_obeys s _ _) (.cons (textPart_obeys s _ _)
    (.cons (listPart_obeys s _ rfl) (.cons (listPart_obeys s _ rfl) (.cons (listPart_obeys s _ rfl)
    (.cons (listPart_obeys s _ rfl) .nil)))))))))))

theorem keys_rules (s : Source) : s.rules.flatMap (·.keys) =
    ["main", "name", "version", "description", "load", "author", "authors", "website", "prefix",
      "libraries", "depend", "softdepend", "loadbefore"] := rfl

/-- Filling an empty descriptor with the metadata of a plugin goes along its keys in their order. If all
that they are read from is well formed, it writes what the rules of the keys say and nothing else. If
not, it reports the first that is not, and has written what the rules say of the keys before it. -/
theorem fill_metadata (s : Source) :
    s.rules.flatMap (·.keys) =
      ["main", "name", "version", "description", "load", "author", "authors", "website", "prefix",
        "libraries", "depend", "softdepend", "loadbefore"] ∧
    IsLastSegment s.declaration.qualifiedName s.declaration.simpleName ∧
    ((∃ doc, Document.fill ∅ s.metadata = (doc, none) ∧ (∀ rule ∈ s.rules, rule.Sound) ∧
        doc.entries = s.rules.filterMap (·.given)) ∨
      ∃ before rule after e doc, Document.fill ∅ s.metadata = (doc, some e) ∧
        s.rules = before ++ rule :: after ∧ (∀ r ∈ before, r.Sound) ∧ ¬ rule.Sound ∧
        rule.Reports e ∧ doc.entries = before.filterMap (·.given)) := by
  refine ⟨s.keys_rules, s.declaration.simpleName_isLastSegment, ?_⟩
  exact Document.fill_obeys s.metadata_obeys (by rw [keys_rules]; decide)

/-- A website that is no text is reported, with what stands before it written. -/
example :
    let entry : Declaration :=
      { qualifiedName := "demo.Main", kind := .classType, enclosing := .package "demo",
        annotations :=
          [⟨.website, [("value", .bool true)]⟩, ⟨.plugin, [("name", .str " ")]⟩,
            ⟨.library, []⟩, ⟨.author, [("value", .str "Ann")]⟩] }
    let filled := Document.fill ∅ (Source.metadata ⟨Snapshot.scanner ⟨[entry]⟩, 0, entry, "1.0"⟩)
    filled.1.entries = [("main", .str "demo.Main"), ("name", .str "Main"), ("version", .str "1.0"),
        ("author", .str "Ann")] ∧
      filled.2 = some (.invalidValue .website "value" "Bool(true)") :=
  ⟨rfl, rfl⟩

end Source
end PluginDescriptor
