import PluginDescriptor.Proofs.Toml.Document
import PluginDescriptor.Proofs.Writable
import PluginDescriptor.Settings

namespace PluginDescriptor

namespace Setting

theorem name_injective : Function.Injective name := by
  intro k k' same
  have found := congrArg ofName? same
  rw [ofName?_name, ofName?_name] at found
  exact Option.some.inj found

theorem mem_all (k : Setting) : k ∈ all := by cases k <;> decide

theorem ofName?_eq_some {key : String} {k : Setting} (known : ofName? key = some k) :
    k.name = key := by
  simpa using List.find?_some known

theorem ofName?_eq_none {key : String} (unknown : key ∉ all.map name) : ofName? key = none := by
  refine List.find?_eq_none.2 fun k member same => unknown ?_
  exact List.mem_map.2 ⟨k, member, by simpa using same⟩

end Setting

namespace Settings

/-- The names of some settings and the values that are given to them. -/
def listing (l : List Setting) (given : Setting → Option String) : List (String × String) :=
  l.filterMap fun k => (given k).map fun v => (k.name, v)

theorem mem_keys_listing {l : List Setting} {given : Setting → Option String} {key : String}
    (member : key ∈ Entries.keys (listing l given)) : ∃ k ∈ l, k.name = key := by
  obtain ⟨e, among, rfl⟩ := List.mem_map.1 member
  obtain ⟨k, listed, value⟩ := List.mem_filterMap.1 among
  obtain ⟨v, _, rfl⟩ := Option.map_eq_some_iff.1 value
  exact ⟨k, listed, rfl⟩

theorem nodup_keys_listing {l : List Setting} (apart : l.Nodup)
    (given : Setting → Option String) : (Entries.keys (listing l given)).Nodup := by
  induction l with
  | nil => exact List.nodup_nil
  | cons k l ih =>
    obtain ⟨new, apart⟩ := List.nodup_cons.1 apart
    unfold listing
    rw [List.filterMap_cons]
    cases given k with
    | none => exact ih apart
    | some v =>
      refine List.nodup_cons.2 ⟨fun again => new ?_, ih apart⟩
      obtain ⟨k', listed, same⟩ := mem_keys_listing again
      exact Setting.name_injective same ▸ listed

theorem find?_listing (l : List Setting) (given : Setting → Option String) (k : Setting) :
    Entries.find? k.name ((listing l given).map fun (key, v) => (key, Toml.Node.text v)) =
      if k ∈ l then (given k).map .text else none := by
  induction l with
  | nil => rfl
  | cons k' l ih =>
    unfold listing at ih ⊢
    rw [List.filterMap_cons]
    by_cases same : k' = k
    · subst same
      cases value : given k' with
      | none => simpa [value] using ih
      | some v => simp [Entries.find?]
    · have other : k'.name ≠ k.name := fun name => same (Setting.name_injective name)
      have member : k ∈ k' :: l ↔ k ∈ l := by simp [Ne.symm same]
      simp only [member]
      cases given k' with
      | none => exact ih
      | some v => simpa [Entries.find?, other] using ih

theorem settingIn?_values (s : Settings) (k : Setting) :
    settingIn? (s.values.map fun (key, v) => (key, .text v)) k = some (s.get? k) := by
  have found := find?_listing Setting.all s.get? k
  rw [if_pos (Setting.mem_all k)] at found
  unfold settingIn?
  rw [show s.values = listing Setting.all s.get? from rfl, found]
  cases s.get? k <;> rfl

/-- The document for some settings describes these settings. -/
theorem ofToml?_toToml (s : Settings) : ofToml? s.toToml = some s := by
  have bare : ∀ e ∈ s.values, Toml.IsBareKey e.1 := by
    intro e member
    obtain ⟨k, _, name⟩ := mem_keys_listing (List.mem_map_of_mem (f := Prod.fst) member)
    have all : ∀ k : Setting, Toml.IsBareKey k.name := by intro k; cases k <;> decide
    exact name ▸ all k
  have read : Toml.parse s.toToml = some (s.values.map fun (key, v) => (key, .text v)) :=
    Toml.parse_lines bare (nodup_keys_listing (by decide) s.get?)
  simp only [ofToml?, read, Option.bind_eq_bind, Option.bind_some, settingIn?_values]
  rfl

theorem save_eq_ok {s : Settings} {t u : FileTree} {p : Path} (saved : s.save t p = (u, .ok ())) :
    (t.makeParents p).2 = true ∧ (t.makeParents p).1.write? p s.toToml.toUTF8 = some u := by
  unfold save at saved
  split at saved
  · cases saved
  · next made parents =>
    split at saved
    · cases saved
    · next written =>
      cases saved
      rw [parents]
      exact ⟨rfl, written⟩

theorem fromUTF8?_toUTF8 (text : String) : String.fromUTF8? text.toUTF8 = some text := by
  unfold String.fromUTF8?
  rw [String.toUTF8_eq_toByteArray, dif_pos text.isValidUTF8]
  rfl

/-- The settings that a file describes. -/
def described? (content : ByteArray) : Option Settings :=
  (String.fromUTF8? content).bind ofToml?

section

variable {t : FileTree} {p : Path} {content : ByteArray} (found : t.read? p = some content)

include found

theorem load_of_read? : load t p =
    (((String.fromUTF8? content).elim (.error .fileAccess) fun text =>
      (ofToml? text).elim (.error .unreadable) .ok)) := by
  have there : t.isThere p = true := by
    unfold FileTree.read? at found
    split at found
    · next file => rw [FileTree.isThere, file]; rfl
    · cases found
  rw [load, if_pos there, found, Option.bind_some]
  cases String.fromUTF8? content with
  | none => rfl
  | some text =>
    simp only [Option.elim_some]
    cases ofToml? text <;> rfl

theorem load_of_described {s : Settings} (described : described? content = some s) :
    load t p = .ok s := by
  obtain ⟨text, shown, settings⟩ := Option.bind_eq_some_iff.1 described
  rw [load_of_read? found, shown, Option.elim_some, settings, Option.elim_some]

theorem load_of_undescribed (described : described? content = none) :
    ∃ e, load t p = .error e := by
  rw [load_of_read? found]
  unfold described? at described
  cases shown : String.fromUTF8? content with
  | none => exact ⟨_, rfl⟩
  | some text =>
    rw [shown, Option.bind_some] at described
    rw [Option.elim_some, described]
    exact ⟨_, rfl⟩

end

theorem described?_toToml (s : Settings) : described? s.toToml.toUTF8 = some s := by
  rw [described?, fromUTF8?_toUTF8, Option.bind_some, ofToml?_toToml]

/-- Settings that were saved are loaded again, whatever their texts are. -/
theorem load_save {s : Settings} {t u : FileTree} {p : Path} (saved : s.save t p = (u, .ok ())) :
    load u p = .ok s :=
  load_of_described (FileTree.read?_of_write? (save_eq_ok saved).2) (described?_toToml s)

/-- Each text asks for quotes of another kind. -/
theorem load_save_quotes :
    let s : Settings :=
      { outputDir := some "", artifactName := some "\"\"\"\n'''\t\\",
        defaultVersion := some "\r\n'it'''s", toolId := some "\n\x00\"quoted\"\x7f" }
    let p : Path := ⟨"a/b/p.toml"⟩
    (s.save {} p).2 = .ok () ∧ load (s.save {} p).1 p = .ok s := by
  intro s p
  have saved : (s.save {} p).2 = .ok () := by decide +kernel
  exact ⟨saved, load_save (Prod.ext rfl saved)⟩

/-- The settings after a value was given to the one with this name, if there is one. -/
def assigned (s : Settings) (key v : String) : Settings :=
  match Setting.ofName? key with
  | none => s
  | some k => s.set k v

/-- What one change does to a file that describes some settings. -/
theorem change_of_load {s : Settings} {t : FileTree} {p : Path} (loaded : load t p = .ok s)
    (key v : String) :
    change t p key v = match Setting.ofName? key with
      | none => (t, .error (.unknownKey key))
      | some k => (s.set k v).save t p := by
  unfold change setNamed
  rw [loaded]
  cases Setting.ofName? key <;> rfl

theorem change_of_error {e : SettingsFault} {t : FileTree} {p : Path}
    (failed : load t p = .error e) (key v : String) : change t p key v = (t, .error e) := by
  rw [change, failed]

theorem exists_save {t : FileTree} {p : Path} (writable : t.IsWritable p) (s : Settings) :
    ∃ u, s.save t p = (u, .ok ()) ∧ u.IsWritable p := by
  obtain ⟨u, written⟩ := writable.write? s.toToml.toUTF8
  refine ⟨u, ?_, FileTree.IsWritable.again writable.1 written⟩
  have parents : t.makeParents p = ((t.makeParents p).1, true) := Prod.ext rfl writable.1
  unfold save
  rw [parents]
  simp only [written]

/-- A change keeps a file writable and gives the new value to the setting that it names. -/
theorem change_keeps {s : Settings} {t : FileTree} {p : Path} (writable : t.IsWritable p)
    (loaded : load t p = .ok s) (key v : String) :
    (change t p key v).1.IsWritable p ∧ load (change t p key v).1 p = .ok (s.assigned key v) := by
  rw [change_of_load loaded, assigned]
  cases Setting.ofName? key with
  | none => exact ⟨writable, loaded⟩
  | some k =>
    obtain ⟨u, saved, writable'⟩ := exists_save writable (s.set k v)
    simp only [saved]
    exact ⟨writable', load_save saved⟩

/-- The value that the last change of a setting gives to it. -/
def latest? (changes : List (String × String)) (k : Setting) : Option String :=
  (changes.filter fun c => c.1 = k.name).getLast?.map Prod.snd

theorem latest?_concat (changes : List (String × String)) (key v : String) (k : Setting) :
    latest? (changes ++ [(key, v)]) k = if key = k.name then some v else latest? changes k := by
  unfold latest?
  rw [List.filter_append]
  split
  · next same => simp [same]
  · next other => simp [other]

/-- The settings that are set after some changes, with their values. -/
def Follows (s : Settings) (changes : List (String × String)) (s' : Settings) : Prop :=
  ∀ k, s'.get? k = (latest? changes k <|> s.get? k)

theorem Follows.concat {s s' : Settings} {changes : List (String × String)}
    (follows : s.Follows changes s') (key v : String) :
    s.Follows (changes ++ [(key, v)]) (s'.assigned key v) := by
  intro k
  rw [latest?_concat, assigned]
  split
  · next unknown =>
    have other : key ≠ k.name := by
      rintro rfl
      rw [Setting.ofName?_name] at unknown
      cases unknown
    rw [if_neg other]
    exact follows k
  · next k' known =>
    rw [get?_set, ← Setting.ofName?_eq_some known]
    by_cases same : k = k'
    · subst same
      simp
    · have other : k'.name ≠ k.name := fun name => same (Setting.name_injective name).symm
      rw [if_neg same, if_neg other]
      exact follows k

end Settings
end PluginDescriptor
