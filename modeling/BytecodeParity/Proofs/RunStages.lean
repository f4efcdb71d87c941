import BytecodeParity.Proofs.RunPhases
import BytecodeParity.Proofs.SortedNames

/-!
The stages of a run. Before it compares, a run goes through one stage for each version, which may
unpack an archive, and then through one for each pair of a version and a class, which may disassemble
a class file. A stage makes one call at most, and the first call that fails is the last one.
-/

set_option autoImplicit false

namespace BytecodeParity

namespace Job

theorem bind_ran {α β : Type} {job : Job α} {progress reached : Progress} {value : α} (next : α → Job β)
    (ran : job.run progress = (.ok value, reached)) : (job >>= next).run progress = (next value).run reached := by
  rw [run_bind, ran]

theorem bind_failed {α β : Type} {job : Job α} {progress reached : Progress} {error : RunError} (next : α → Job β)
    (failed : job.run progress = (.error error, reached)) : (job >>= next).run progress = (.error error, reached) := by
  rw [run_bind, failed]

theorem run_change {α : Type} (act : FileTree → Except RunError α × FileTree) (progress : Progress) :
    (change act).run progress = ((act progress.tree).1, { progress with tree := (act progress.tree).2 }) := rfl

theorem run_call (tool : ToolCall) (progress : Progress) :
    (call tool).run progress = (.ok (), { progress with calls := progress.calls ++ [tool] }) := rfl

end Job

namespace Discovery

def IsArchive (tree : FileTree) (folder : String) (pattern : Matcher) : String → Prop :=
  Lists tree folder fun name entry => entry.isFile && pattern.accepts name

structure IsFirstArchive (tree : FileTree) (folder : String) (pattern : Matcher) (name : String) : Prop where
  stands : IsArchive tree folder pattern name
  first : ∀ other, IsArchive tree folder pattern other → name ≤ other

theorem archive_none (tree : FileTree) (folder : String) (pattern : Matcher)
    (found : archive? tree folder pattern = .ok none) (name : String) : ¬ IsArchive tree folder pattern name := by
  obtain ⟨names, listed, isFirst⟩ := Listing.archive_ok_iff.mp found
  cases names with
  | cons first names => cases isFirst
  | nil =>
      rw [IsArchive, ← mem_sorted_names_iff listed]
      exact List.not_mem_nil

theorem archive_some (tree : FileTree) (folder path : String) (pattern : Matcher)
    (found : archive? tree folder pattern = .ok (some path)) :
    ∃ name, IsFirstArchive tree folder pattern name ∧ path = Path.join folder name := by
  obtain ⟨names, listed, isFirst⟩ := Listing.archive_ok_iff.mp found
  cases names with
  | nil => cases isFirst
  | cons name names =>
      cases isFirst
      refine ⟨name, ⟨(mem_sorted_names_iff listed name).mp (List.mem_cons_self ..), ?_⟩, rfl⟩
      intro other archive
      rcases List.mem_cons.mp ((mem_sorted_names_iff listed other).mpr archive) with rfl | later
      · exact le_refl other
      · exact (List.pairwise_cons.mp (sorted_names_ascending listed)).1 other later

end Discovery

namespace Verification

inductive Stage where
  | extraction (version : String)
  | disassembly (version className : String)

inductive Act where
  | called (call : ToolCall) (before : FileTree)
  | logged (entry : LogEntry)

namespace Act

def call? : Act → Option ToolCall
  | called call _ => some call
  | logged _ => none

def entry? : Act → Option LogEntry
  | called _ _ => none
  | logged entry => some entry

theorem calls_of_logged (entries : List LogEntry) : (entries.map logged).filterMap call? = [] :=
  List.filterMap_eq_nil_iff.mpr fun act member => by
    obtain ⟨entry, _, rfl⟩ := List.mem_map.mp member
    rfl

theorem entries_of_logged (entries : List LogEntry) : (entries.map logged).filterMap entry? = entries := by
  rw [List.filterMap_map]
  exact List.filterMap_some

end Act

def inTurn (first second : FileTree → Except RunError Unit × FileTree) (tree : FileTree) :
    Except RunError Unit × FileTree :=
  match first tree with
  | (.ok _, between) => second between
  | (.error error, last) => (.error error, last)

theorem in_turn_ok_iff (first second : FileTree → Except RunError Unit × FileTree) (tree last : FileTree) :
    inTurn first second tree = (.ok (), last) ↔
      ∃ between, first tree = (.ok (), between) ∧ second between = (.ok (), last) := by
  rw [inTurn]
  cases first tree with
  | mk result between => cases result <;> simp

theorem change_in_turn {α : Type} (first second : FileTree → Except RunError Unit × FileTree) (next : Job α) :
    (Job.change first >>= fun _ => Job.change second >>= fun _ => next) =
      (Job.change (inTurn first second) >>= fun _ => next) := by
  funext progress
  change (Job.change first >>= fun _ => Job.change second >>= fun _ => next).run progress =
    (Job.change (inTurn first second) >>= fun _ => next).run progress
  rw [Job.run_bind, Job.run_bind, Job.run_change, Job.run_change, inTurn]
  cases first progress.tree with
  | mk result between =>
      cases result with
      | error error => rfl
      | ok done => exact Job.run_bind (Job.change second) (fun _ => next) _

def FailsByAccess (act : FileTree → Except RunError Unit × FileTree) : Prop :=
  ∀ tree last error, act tree = (.error error, last) → ∃ cause, error = .access cause

theorem fails_by_access_in_turn (first second : FileTree → Except RunError Unit × FileTree)
    (isFirst : FailsByAccess first) (isSecond : FailsByAccess second) : FailsByAccess (inTurn first second) := by
  intro tree last error failed
  rw [inTurn] at failed
  cases begun : first tree with
  | mk result between =>
      rw [begun] at failed
      cases result with
      | ok done => exact isSecond between last error failed
      | error cause =>
          cases failed
          exact isFirst tree last error begun

-- One file operation either succeeds or leaves the tree as it was.
section Failing

variable {path text : String} {tree last : FileTree} {error : RunError}

theorem remove_stale_failed (failed : removeStale path tree = (.error error, last)) :
    last = tree ∧ ∃ cause, error = .access cause := by
  rw [removeStale] at failed
  split at failed
  · split at failed
    · cases failed
    · cases failed
      exact ⟨rfl, _, rfl⟩
  · cases failed

theorem write_artifact_failed (failed : writeArtifact path text tree = (.error error, last)) :
    last = tree ∧ ∃ cause, error = .access cause := by
  rw [writeArtifact] at failed
  split at failed
  · cases failed
  · cases failed
    exact ⟨rfl, _, rfl⟩

end Failing

theorem remove_stale_access (path : String) : FailsByAccess (removeStale path) :=
  fun _ _ _ failed => (remove_stale_failed failed).2

theorem write_artifact_access (path text : String) : FailsByAccess (writeArtifact path text) :=
  fun _ _ _ failed => (write_artifact_failed failed).2

section Stages

variable (verification : Verification) (pattern : Matcher)

def folderOf (version : String) : String :=
  Layout.versionDir verification.root version

def artifactsOf (version className : String) : ArtifactPaths :=
  Layout.artifactPaths verification.root version className

def classFileOf (className : String) : String :=
  Layout.classFile verification.config.classesDir className

def hasClassFile (tree : FileTree) (version className : String) : Bool :=
  tree.isFile (Path.join (verification.folderOf version) (verification.classFileOf className))

def Cleans (version : String) (tree cleaned : FileTree) : Prop :=
  Discovery.clean (verification.folderOf version) verification.config.cleanDirs tree = (.ok (), cleaned)

def clearArtifacts (version className : String) : FileTree → Except RunError Unit × FileTree :=
  inTurn (removeStale (verification.artifactsOf version className).disassembly)
    (removeStale (verification.artifactsOf version className).signatures)

def keepArtifacts (version className : String) (artifacts : Artifacts) : FileTree → Except RunError Unit × FileTree :=
  inTurn (writeArtifact (verification.artifactsOf version className).disassembly artifacts.full)
    (writeArtifact (verification.artifactsOf version className).signatures artifacts.signatures)

def removing (version : String) (tree : FileTree) : List Act :=
  (Discovery.removals (verification.folderOf version) verification.config.cleanDirs tree).map fun path =>
    .logged (.removing path)

def unpacking (version archive : String) (tree cleaned : FileTree) : List Act :=
  verification.removing version tree ++
    [.logged (.unpacking archive verification.tools.extractorName),
      .called (.extract archive (verification.folderOf version)) cleaned]

def disassemblyOf (version className : String) (cleared : FileTree) : Act :=
  .called (.disassemble (verification.folderOf version) (verification.classFileOf className)) cleared

-- The ways in which a stage can go when no file operation fails: the tree it is reached with, what it
-- does, how the call fails if it does, and the tree it leaves.
inductive Step : Stage → FileTree → List Act → Option ToolError → FileTree → Prop where
  | noArchive {version : String} {tree cleaned : FileTree} (cleans : verification.Cleans version tree cleaned)
      (absent : ∀ name, ¬ Discovery.IsArchive cleaned (verification.folderOf version) pattern name) :
      Step (.extraction version) tree (verification.removing version tree ++ [.logged (.notice (.noArchive version))])
        none cleaned
  | extracted {version name : String} {tree cleaned last : FileTree}
      (cleans : verification.Cleans version tree cleaned)
      (first : Discovery.IsFirstArchive cleaned (verification.folderOf version) pattern name)
      (answers : verification.tools.extract (Path.join (verification.folderOf version) name)
        (verification.folderOf version) cleaned = (.ok (), last)) :
      Step (.extraction version) tree
        (verification.unpacking version (Path.join (verification.folderOf version) name) tree cleaned) none last
  | notExtracted {version name : String} {tree cleaned last : FileTree} {error : ToolError}
      (cleans : verification.Cleans version tree cleaned)
      (first : Discovery.IsFirstArchive cleaned (verification.folderOf version) pattern name)
      (answers : verification.tools.extract (Path.join (verification.folderOf version) name)
        (verification.folderOf version) cleaned = (.error error, last)) :
      Step (.extraction version) tree
        (verification.unpacking version (Path.join (verification.folderOf version) name) tree cleaned) (some error) last
  | noClassFile {version className : String} {tree cleared : FileTree}
      (clears : verification.clearArtifacts version className tree = (.ok (), cleared))
      (absent : verification.hasClassFile cleared version className = false) :
      Step (.disassembly version className) tree [.logged (.notice (.noClassFile version className))] none cleared
  | disassembled {version className : String} {tree cleared answered last : FileTree} {artifacts : Artifacts}
      (clears : verification.clearArtifacts version className tree = (.ok (), cleared))
      (stands : verification.hasClassFile cleared version className = true)
      (answers : verification.tools.disassemble (verification.folderOf version) (verification.classFileOf className)
        cleared = (.ok artifacts, answered))
      (keeps : verification.keepArtifacts version className artifacts answered = (.ok (), last)) :
      Step (.disassembly version className) tree
        [verification.disassemblyOf version className cleared, .logged (.disassembled version className)] none last
  | notDisassembled {version className : String} {tree cleared last : FileTree} {error : ToolError}
      (clears : verification.clearArtifacts version className tree = (.ok (), cleared))
      (stands : verification.hasClassFile cleared version className = true)
      (answers : verification.tools.disassemble (verification.folderOf version) (verification.classFileOf className)
        cleared = (.error error, last)) :
      Step (.disassembly version className) tree [verification.disassemblyOf version className cleared] (some error)
        last

inductive Steps : List Stage → FileTree → List Act → Option ToolError → FileTree → Prop where
  | done {tree : FileTree} : Steps [] tree [] none tree
  | next {stage : Stage} {stages : List Stage} {tree between last : FileTree} {acts later : List Act}
      {failure : Option ToolError} (step : Step verification pattern stage tree acts none between)
      (rest : Steps stages between later failure last) : Steps (stage :: stages) tree (acts ++ later) failure last
  | stop {stage : Stage} {stages : List Stage} {tree last : FileTree} {acts : List Act} {error : ToolError}
      (step : Step verification pattern stage tree acts (some error) last) :
      Steps (stage :: stages) tree acts (some error) last

end Stages

def ending : Option ToolError → Except RunError Unit
  | none => .ok ()
  | some error => .error (.tool error)

end Verification

def Progress.after (progress : Progress) (acts : List Verification.Act) (tree : FileTree) : Progress :=
  ⟨tree, progress.calls ++ acts.filterMap Verification.Act.call?,
    progress.log ++ acts.filterMap Verification.Act.entry?⟩

namespace Progress

variable (progress : Progress) (acts : List Verification.Act) (tree : FileTree)

theorem after_nil : progress.after [] progress.tree = progress := by
  simp [after]

theorem after_append (later : List Verification.Act) (last : FileTree) :
    (progress.after acts tree).after later last = progress.after (acts ++ later) last := by
  simp only [after, List.append_assoc, ← List.filterMap_append]

theorem after_ask {α : Type} (read : FileTree → Except RunError α) :
    (Job.ask read).run (progress.after acts tree) = (read tree, progress.after acts tree) := rfl

theorem after_change {α : Type} (act : FileTree → Except RunError α × FileTree) :
    (Job.change act).run (progress.after acts tree) = ((act tree).1, progress.after acts (act tree).2) := rfl

theorem after_note (entries : List LogEntry) :
    (Job.note entries).run (progress.after acts tree) =
      (.ok (), progress.after (acts ++ entries.map .logged) tree) := by
  simp only [Job.run_note, after, Progress.noting, List.filterMap_append, Verification.Act.calls_of_logged,
    Verification.Act.entries_of_logged, List.append_nil, List.append_assoc]

theorem after_call (call : ToolCall) :
    (Job.call call).run (progress.after acts tree) = (.ok (), progress.after (acts ++ [.called call tree]) tree) := by
  have entries : [Verification.Act.called call tree].filterMap Verification.Act.entry? = [] := rfl
  rw [Job.run_call]
  simp only [after, List.filterMap_append, List.append_assoc, entries, List.append_nil]
  rfl

end Progress

namespace Verification

section Jobs

variable {verification : Verification} {pattern : Matcher}

def Performs (verification : Verification) (pattern : Matcher) (stage : Stage) (job : Job Unit) : Prop :=
  ∀ progress, (∃ error reached, job.run progress = (.error (.access error), reached)) ∨
    ∃ acts failure last, Step verification pattern stage progress.tree acts failure last ∧
      job.run progress = (ending failure, progress.after acts last)

def Follows (verification : Verification) (pattern : Matcher) (stages : List Stage) (job : Job Unit) : Prop :=
  ∀ progress, (∃ error reached, job.run progress = (.error (.access error), reached)) ∨
    ∃ acts failure last, Steps verification pattern stages progress.tree acts failure last ∧
      job.run progress = (ending failure, progress.after acts last)

theorem follows_done : Follows verification pattern [] (pure ()) := by
  intro progress
  refine .inr ⟨[], none, progress.tree, .done, ?_⟩
  rw [progress.after_nil]
  rfl

theorem follows_next {stage : Stage} {stages : List Stage} {first rest : Job Unit}
    (performs : Performs verification pattern stage first) (follows : Follows verification pattern stages rest) :
    Follows verification pattern (stage :: stages) (first >>= fun _ => rest) := by
  intro progress
  rcases performs progress with ⟨error, reached, failed⟩ | ⟨acts, failure, between, step, ran⟩
  · exact .inl ⟨error, reached, Job.bind_failed _ failed⟩
  · cases failure with
    | some error => exact .inr ⟨acts, some error, between, .stop step, Job.bind_failed _ ran⟩
    | none =>
        rw [Job.bind_ran _ ran]
        rcases follows (progress.after acts between) with failed | ⟨later, failure, last, steps, done⟩
        · exact .inl failed
        · refine .inr ⟨acts ++ later, failure, last, .next step steps, ?_⟩
          rw [done, Progress.after_append]

theorem clean_version_run (version : String) (progress : Progress) :
    (cleanVersion verification (verification.folderOf version)).run progress =
      (accessing (Discovery.clean (verification.folderOf version) verification.config.cleanDirs progress.tree).1,
        progress.after (verification.removing version progress.tree)
          (Discovery.clean (verification.folderOf version) verification.config.cleanDirs progress.tree).2) := by
  nth_rewrite 1 [← progress.after_nil]
  simp only [cleanVersion, Job.run_bind, Progress.after_ask, Progress.after_note, Progress.after_change, List.map_map]
  rfl

theorem extract_version_run (version : String) (progress : Progress) :
    (extractVersion verification .plain pattern version).run progress =
      match Discovery.clean (verification.folderOf version) verification.config.cleanDirs progress.tree with
      | (.error cause, tree) =>
          (.error (.access cause), progress.after (verification.removing version progress.tree) tree)
      | (.ok _, cleaned) =>
          match Discovery.archive? cleaned (verification.folderOf version) pattern with
          | .error cause =>
              (.error (.access cause), progress.after (verification.removing version progress.tree) cleaned)
          | .ok none =>
              (.ok (), progress.after
                (verification.removing version progress.tree ++ [.logged (.notice (.noArchive version))]) cleaned)
          | .ok (some archive) =>
              match verification.tools.extract archive (verification.folderOf version) cleaned with
              | (.ok _, last) => (.ok (), progress.after (verification.unpacking version archive progress.tree cleaned) last)
              | (.error error, last) =>
                  (.error (.tool error),
                    progress.after (verification.unpacking version archive progress.tree cleaned) last) := by
  rw [extractVersion, ← folderOf, Job.run_bind, clean_version_run]
  cases Discovery.clean (verification.folderOf version) verification.config.cleanDirs progress.tree with
  | mk result cleaned =>
      cases result with
      | error cause => rfl
      | ok done =>
          have plain : Listing.plain.archive? = Discovery.archive? := rfl
          simp only [accessing, Except.mapError, Job.run_bind, Progress.after_ask, plain]
          cases found : Discovery.archive? cleaned (verification.folderOf version) pattern with
          | error cause => rfl
          | ok archive =>
              cases archive with
              | none => simp only [Progress.after_note, List.map_cons, List.map_nil]
              | some archive =>
                  cases answers : verification.tools.extract archive (verification.folderOf version) cleaned with
                  | mk answer last =>
                      simp only [Job.run_bind, Progress.after_note, Progress.after_call, Progress.after_change,
                        List.map_cons, List.map_nil, List.append_assoc, List.cons_append, List.nil_append, unpacking,
                        answers]
                      cases answer <;> rfl

theorem extract_version_performs (version : String) :
    Performs verification pattern (.extraction version) (extractVersion verification .plain pattern version) := by
  intro progress
  rw [extract_version_run]
  split
  · next cause tree cleans => exact .inl ⟨cause, _, rfl⟩
  · next done cleaned cleans =>
      split
      · next cause found => exact .inl ⟨cause, _, rfl⟩
      · next found =>
          exact .inr ⟨_, none, cleaned, .noArchive cleans (Discovery.archive_none _ _ _ found), rfl⟩
      · next archive found =>
          obtain ⟨name, first, rfl⟩ := Discovery.archive_some _ _ _ _ found
          split
          · next answer last answers => exact .inr ⟨_, none, last, .extracted cleans first answers, rfl⟩
          · next error last answers => exact .inr ⟨_, some error, last, .notExtracted cleans first answers, rfl⟩

theorem clear_artifacts_access (version className : String) :
    FailsByAccess (verification.clearArtifacts version className) :=
  fails_by_access_in_turn _ _ (remove_stale_access _) (remove_stale_access _)

theorem keep_artifacts_access (version className : String) (artifacts : Artifacts) :
    FailsByAccess (verification.keepArtifacts version className artifacts) :=
  fails_by_access_in_turn _ _ (write_artifact_access _ _) (write_artifact_access _ _)

theorem disassemble_pair_run (version className : String) (progress : Progress) :
    (disassemblePair verification version className).run progress =
      match verification.clearArtifacts version className progress.tree with
      | (.error error, tree) => (.error error, progress.after [] tree)
      | (.ok _, cleared) =>
          if verification.hasClassFile cleared version className then
            match verification.tools.disassemble (verification.folderOf version)
                (verification.classFileOf className) cleared with
            | (.error error, last) =>
                (.error (.tool error), progress.after [verification.disassemblyOf version className cleared] last)
            | (.ok artifacts, answered) =>
                match verification.keepArtifacts version className artifacts answered with
                | (.error error, last) =>
                    (.error error, progress.after [verification.disassemblyOf version className cleared] last)
                | (.ok _, last) =>
                    (.ok (), progress.after
                      [verification.disassemblyOf version className cleared, .logged (.disassembled version className)]
                      last)
          else (.ok (), progress.after [.logged (.notice (.noClassFile version className))] cleared) := by
  nth_rewrite 1 [← progress.after_nil]
  rw [disassemblePair, ← artifactsOf, ← folderOf, ← classFileOf, change_in_turn, ← clearArtifacts, Job.run_bind,
    Progress.after_change]
  cases verification.clearArtifacts version className progress.tree with
  | mk result cleared =>
      cases result with
      | error error => rfl
      | ok done =>
          simp only [Job.run_bind, Progress.after_ask]
          rw [← hasClassFile]
          cases verification.hasClassFile cleared version className with
          | false => simp only [Bool.false_eq_true, if_false, Progress.after_note, List.map_cons, List.map_nil,
              List.nil_append]
          | true =>
              cases answers : verification.tools.disassemble (verification.folderOf version)
                  (verification.classFileOf className) cleared with
              | mk answer answered =>
                  simp only [if_true, change_in_turn]
                  simp only [Job.run_bind, Progress.after_call, Progress.after_change, List.nil_append, answers]
                  cases answer with
                  | error error => rfl
                  | ok artifacts =>
                      simp only [Except.mapError]
                      rw [← keepArtifacts, Progress.after_change]
                      cases verification.keepArtifacts version className artifacts answered with
                      | mk result last =>
                          cases result with
                          | error error => rfl
                          | ok done =>
                              simp only [Progress.after_note]
                              rfl

theorem disassemble_pair_performs (version className : String) :
    Performs verification pattern (.disassembly version className)
      (disassemblePair verification version className) := by
  intro progress
  rw [disassemble_pair_run]
  split
  · next error tree clears =>
      obtain ⟨cause, rfl⟩ := clear_artifacts_access _ _ _ _ _ clears
      exact .inl ⟨cause, _, rfl⟩
  · next done cleared clears =>
      split
      · next stands =>
          split
          · next error last answers =>
              exact .inr ⟨_, some error, last, .notDisassembled clears stands answers, rfl⟩
          · next artifacts answered answers =>
              split
              · next error last keeps =>
                  obtain ⟨cause, rfl⟩ := keep_artifacts_access _ _ _ _ _ _ keeps
                  exact .inl ⟨cause, _, rfl⟩
              · next done last keeps => exact .inr ⟨_, none, last, .disassembled clears stands answers keeps, rfl⟩
      · next absent => exact .inr ⟨_, none, cleared, .noClassFile clears (by simpa using absent), rfl⟩

end Jobs

end Verification

end BytecodeParity
