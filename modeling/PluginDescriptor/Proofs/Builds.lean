import PluginDescriptor.Proofs.Replacing

namespace PluginDescriptor

/-- One build among others with the same options: the program that it is of, and the stamp that its
descriptor file gets. -/
structure Run where
  stamp : Stamp
  scanner : Scanner
  reported : List Diagnostic := []

namespace Run

variable (o : Options)

def document (r : Run) : Except Fault (Option Document) := assemble r.scanner o.defaultVersion

def result (r : Run) (t : FileTree) : BuildResult :=
  buildWith o r.stamp r.scanner t r.reported

/-- The files after builds one after the other. -/
def filesAfter (t : FileTree) (runs : List Run) : FileTree :=
  runs.foldl (fun t r => (r.result o t).files) t

variable {o : Options} {t : FileTree} {r : Run}

/-- A build leaves the files alone, or replaces the descriptor file. -/
theorem result_cases (o : Options) (r : Run) (t : FileTree) :
    ((∀ d, r.document o ≠ .ok (some d)) ∧ (∀ p, (r.result o t).outcome ≠ .ok (.written p)) ∧
        (r.result o t).files = t) ∨
      ∃ d files done, r.document o = .ok (some d) ∧
        t.replace o.artifactPath (r.stamp.render d).toUTF8 = (files, done) ∧
        (r.result o t).files = files ∧ (r.result o t).outcome =
          if done then .ok (.written o.artifactPath) else .error .fileAccess := by
  unfold result buildWith assembleReporting document
  cases assembled : assemble r.scanner o.defaultVersion with
  | error e => exact Or.inl ⟨nofun, nofun, rfl⟩
  | ok found => cases found with
    | none => exact Or.inl ⟨nofun, nofun, rfl⟩
    | some d =>
      right
      simp only [Stamp.write]
      cases replaced : t.replace o.artifactPath (r.stamp.render d).toUTF8 with
      | mk files done => cases done with
        | true => exact ⟨d, files, true, rfl, replaced, rfl, rfl⟩
        | false => exact ⟨d, files, false, rfl, replaced, rfl, rfl⟩

/-- What a build guarantees of the descriptor file, given the files before it. -/
structure Whole (o : Options) (r : Run) (t : FileTree) (result : BuildResult) : Prop where
  /-- A descriptor that was written is there with all of its text. -/
  written : ∀ p, result.outcome = .ok (.written p) → p = o.artifactPath ∧
    ∃ d, r.document o = .ok (some d) ∧
      result.files.read? o.artifactPath = some (r.stamp.render d).toUTF8
  /-- Any other build leaves what the path held. -/
  kept : (∀ p, result.outcome ≠ .ok (.written p)) →
    t.Climbs (t.start o.artifactPath) o.artifactPath.segments →
    ∀ below, result.files.held o.artifactPath below = t.held o.artifactPath below
  /-- Without a descriptor nothing is touched. -/
  untouched : (∀ d, r.document o ≠ .ok (some d)) → result.files = t
  /-- With one, no temporary file stays. -/
  clean : ∀ d, r.document o = .ok (some d) →
    result.files.read? (o.artifactPath.withExtension temporaryExtension) = none

theorem whole (wf : t.WellFormed) (named : o.artifactPath.splitName?.isSome) (r : Run) :
    r.Whole o t (r.result o t) := by
  rcases result_cases o r t with ⟨missing, other, files⟩ | ⟨d, files, done, found, run, after, ends⟩
  · refine ⟨fun p written => (other p written).elim, fun _ _ below => by rw [files],
      fun _ => files, fun d found => (missing d found).elim⟩
  · have replaced := FileTree.replace_replaced wf named (r.stamp.render d).toUTF8
    rw [run] at replaced
    rw [← after] at replaced
    refine ⟨fun p written => ?_, fun other climbs => ?_, fun missing => (missing d found).elim,
      fun _ _ => replaced.clean⟩
    · rw [ends] at written
      cases done with
      | true =>
        cases written
        exact ⟨rfl, d, found, replaced.done rfl⟩
      | false => cases written
    · rw [ends] at other
      cases done with
      | true => exact (other _ rfl).elim
      | false => exact replaced.failed rfl climbs

/-- What no build takes away. -/
theorem result_keeps (wf : t.WellFormed) (named : o.artifactPath.splitName?.isSome) (r : Run) :
    (r.result o t).files.WellFormed ∧ (r.result o t).files.workingDirectory = t.workingDirectory ∧
      ∀ x, t.isDirectoryAt x → (r.result o t).files.isDirectoryAt x := by
  rcases result_cases o r t with ⟨_, _, files⟩ | ⟨d, files, done, _, run, after, _⟩
  · rw [files]
    exact ⟨wf, rfl, fun _ there => there⟩
  · have replaced := FileTree.replace_replaced wf named (r.stamp.render d).toUTF8
    rw [run, ← after] at replaced
    exact ⟨replaced.wellFormed, replaced.working, replaced.keeps⟩

theorem filesAfter_keeps (wf : t.WellFormed) (named : o.artifactPath.splitName?.isSome)
    (runs : List Run) :
    (filesAfter o t runs).WellFormed ∧
      (filesAfter o t runs).workingDirectory = t.workingDirectory ∧
      ∀ x, t.isDirectoryAt x → (filesAfter o t runs).isDirectoryAt x := by
  induction runs generalizing t with
  | nil => exact ⟨wf, rfl, fun _ there => there⟩
  | cons r runs ih =>
    obtain ⟨wf', working, keeps⟩ := result_keeps wf named r
    obtain ⟨wf'', working', keeps'⟩ := ih wf'
    exact ⟨wf'', working'.trans working, fun x there => keeps' x (keeps x there)⟩

/-- Whatever was built before, a build writes the descriptor file as a whole or leaves what its path
held, if every step up in the path came after a directory from the beginning. -/
theorem whole_filesAfter (wf : t.WellFormed) (named : o.artifactPath.fileName?.isSome)
    (earlier : List Run) (r : Run) :
    r.Whole o (filesAfter o t earlier) (r.result o (filesAfter o t earlier)) ∧
      (t.Climbs (t.start o.artifactPath) o.artifactPath.segments →
        (filesAfter o t earlier).Climbs ((filesAfter o t earlier).start o.artifactPath)
          o.artifactPath.segments) := by
  have named' : o.artifactPath.splitName?.isSome := by
    rwa [Path.fileName?, Option.isSome_map] at named
  obtain ⟨wf', working, keeps⟩ := filesAfter_keeps wf named' earlier
  refine ⟨whole wf' named' r, fun climbs => ?_⟩
  rw [FileTree.start_eq working]
  exact climbs.mono keeps

/-- A build of a plugin that declares nothing but itself. -/
def demo : Run where
  stamp := ⟨"demo", "plugin.yml", ⟨2025, 1, 2, 3, 4, 5⟩⟩
  scanner := Snapshot.scanner
    { declarations :=
      [{ qualifiedName := "demo.Main", kind := .classType, enclosing := .package "demo",
         annotations := [⟨.plugin, []⟩] }] }

/-- A tree in which a directory stands where the temporary file has to be written. -/
def occupied : FileTree where
  nodes := .ofList [(["plugin.yml"], .file "old".toUTF8), (["plugin.yml.tmp"], .directory)]

theorem whole_filesAfter_occupied :
    occupied.WellFormed ∧ ({} : Options).artifactPath.fileName?.isSome ∧
      (demo.result {} (filesAfter {} occupied [demo])).outcome = .error .fileAccess ∧
      (demo.result {} (filesAfter {} occupied [demo])).files.held ({} : Options).artifactPath [] =
        some (.file "old".toUTF8) := by
  have wf : occupied.WellFormed := FileTree.wellFormed_of_entries (by decide) (by decide)
  have named : ({} : Options).artifactPath.fileName?.isSome := by decide
  have ending : (demo.result {} (filesAfter {} occupied [demo])).outcome = .error .fileAccess := rfl
  obtain ⟨sound, climbs⟩ := whole_filesAfter wf named [demo] demo
  have level : occupied.Climbs (occupied.start ({} : Options).artifactPath)
      ({} : Options).artifactPath.segments := FileTree.climbs_of_not_mem (by decide)
  have kept := sound.kept (by rw [ending]; nofun) (climbs level) []
  exact ⟨wf, named, ending, kept.trans rfl⟩

/-- Options whose output root steps up from where the descriptor file is to be. -/
def misplaced : Options := { outputRoot := ⟨"plugin.yml/.."⟩ }

/-- Making the directories of an output root that steps up from a missing directory can put a
directory in the place of the descriptor file, where nothing was. -/
theorem kept_without_climbs_misplaced :
    ({} : FileTree).WellFormed ∧ misplaced.artifactPath.fileName? = some "plugin.yml" ∧
      (demo.result misplaced {}).outcome = .error .fileAccess ∧
      ({} : FileTree).lookup? misplaced.artifactPath = none ∧
      (demo.result misplaced {}).files.lookup? misplaced.artifactPath = some .directory :=
  ⟨FileTree.wellFormed_of_entries (by decide) (by decide), by decide, rfl, rfl, rfl⟩

end Run
end PluginDescriptor
