import BytecodeParity.Proofs.CallPlan

set_option autoImplicit false

namespace BytecodeParity

def Toolkit.failure? (tools : Toolkit) : ToolCall → FileTree → Option ToolError
  | .extract archive folder, tree =>
      match (tools.extract archive folder tree).1 with
      | .ok _ => none
      | .error error => some error
  | .disassemble folder classFile, tree =>
      match (tools.disassemble folder classFile tree).1 with
      | .ok _ => none
      | .error error => some error

theorem Discovery.first_archive_unique {tree : FileTree} {folder name other : String} {pattern : Matcher}
    (first : IsFirstArchive tree folder pattern name) (again : IsFirstArchive tree folder pattern other) :
    name = other :=
  le_antisymm (first.first other again.stands) (again.first name first.stands)

namespace Verification

def Act.failure? (tools : Toolkit) : Act → Option ToolError
  | .called call before => tools.failure? call before
  | .logged _ => none

section Determinism

variable {verification : Verification} {pattern : Matcher} {version className : String}

theorem cleans_deterministic {tree cleaned other : FileTree} (cleans : verification.Cleans version tree cleaned)
    (again : verification.Cleans version tree other) : cleaned = other := by
  rw [Cleans] at cleans again
  rw [cleans] at again
  cases again
  rfl

theorem clears_deterministic {tree cleared other : FileTree}
    (clears : verification.clearArtifacts version className tree = (.ok (), cleared))
    (again : verification.clearArtifacts version className tree = (.ok (), other)) : cleared = other := by
  rw [clears] at again
  cases again
  rfl

theorem extract_deterministic {name other : String} {tree cleaned otherCleaned last otherLast : FileTree}
    {answer otherAnswer : Except ToolError Unit} (cleans : verification.Cleans version tree cleaned)
    (first : Discovery.IsFirstArchive cleaned (verification.folderOf version) pattern name)
    (answers : verification.tools.extract (Path.join (verification.folderOf version) name)
      (verification.folderOf version) cleaned = (answer, last))
    (again : verification.Cleans version tree otherCleaned)
    (firstAgain : Discovery.IsFirstArchive otherCleaned (verification.folderOf version) pattern other)
    (answersAgain : verification.tools.extract (Path.join (verification.folderOf version) other)
      (verification.folderOf version) otherCleaned = (otherAnswer, otherLast)) :
    cleaned = otherCleaned ∧ name = other ∧ answer = otherAnswer ∧ last = otherLast := by
  cases cleans_deterministic cleans again
  cases Discovery.first_archive_unique first firstAgain
  rw [answers] at answersAgain
  cases answersAgain
  exact ⟨rfl, rfl, rfl, rfl⟩

theorem disassemble_deterministic {tree cleared otherCleared last otherLast : FileTree}
    {answer otherAnswer : Except ToolError Artifacts}
    (clears : verification.clearArtifacts version className tree = (.ok (), cleared))
    (answers : verification.tools.disassemble (verification.folderOf version) (verification.classFileOf className)
      cleared = (answer, last))
    (again : verification.clearArtifacts version className tree = (.ok (), otherCleared))
    (answersAgain : verification.tools.disassemble (verification.folderOf version)
      (verification.classFileOf className) otherCleared = (otherAnswer, otherLast)) :
    cleared = otherCleared ∧ answer = otherAnswer ∧ last = otherLast := by
  cases clears_deterministic clears again
  rw [answers] at answersAgain
  cases answersAgain
  exact ⟨rfl, rfl, rfl⟩

theorem step_deterministic {stage : Stage} {tree last otherLast : FileTree} {acts otherActs : List Act}
    {failure otherFailure : Option ToolError} (one : Step verification pattern stage tree acts failure last)
    (other : Step verification pattern stage tree otherActs otherFailure otherLast) :
    acts = otherActs ∧ failure = otherFailure ∧ last = otherLast := by
  cases one with
  | noArchive cleans absent =>
      cases other with
      | noArchive again _ => exact ⟨rfl, rfl, cleans_deterministic cleans again⟩
      | extracted again first _ | notExtracted again first _ =>
          cases cleans_deterministic cleans again
          exact absurd first.stands (absent _)
  | extracted cleans first answers =>
      cases other with
      | noArchive again absent =>
          cases cleans_deterministic cleans again
          exact absurd first.stands (absent _)
      | extracted again firstAgain answersAgain =>
          obtain ⟨rfl, rfl, -, rfl⟩ := extract_deterministic cleans first answers again firstAgain answersAgain
          exact ⟨rfl, rfl, rfl⟩
      | notExtracted again firstAgain answersAgain =>
          cases (extract_deterministic cleans first answers again firstAgain answersAgain).2.2.1
  | notExtracted cleans first answers =>
      cases other with
      | noArchive again absent =>
          cases cleans_deterministic cleans again
          exact absurd first.stands (absent _)
      | extracted again firstAgain answersAgain =>
          cases (extract_deterministic cleans first answers again firstAgain answersAgain).2.2.1
      | notExtracted again firstAgain answersAgain =>
          obtain ⟨rfl, rfl, same, rfl⟩ := extract_deterministic cleans first answers again firstAgain answersAgain
          cases same
          exact ⟨rfl, rfl, rfl⟩
  | noClassFile clears absent =>
      cases other with
      | noClassFile again _ => exact ⟨rfl, rfl, clears_deterministic clears again⟩
      | disassembled again stands _ _ | notDisassembled again stands _ =>
          cases clears_deterministic clears again
          exact absurd stands (by simp [absent])
  | disassembled clears stands answers keeps =>
      cases other with
      | noClassFile again absent =>
          cases clears_deterministic clears again
          exact absurd stands (by simp [absent])
      | disassembled again _ answersAgain keepsAgain =>
          obtain ⟨rfl, same, rfl⟩ := disassemble_deterministic clears answers again answersAgain
          cases same
          rw [keeps] at keepsAgain
          cases keepsAgain
          exact ⟨rfl, rfl, rfl⟩
      | notDisassembled again _ answersAgain =>
          cases (disassemble_deterministic clears answers again answersAgain).2.1
  | notDisassembled clears stands answers =>
      cases other with
      | noClassFile again absent =>
          cases clears_deterministic clears again
          exact absurd stands (by simp [absent])
      | disassembled again _ answersAgain _ =>
          cases (disassemble_deterministic clears answers again answersAgain).2.1
      | notDisassembled again _ answersAgain =>
          obtain ⟨rfl, same, rfl⟩ := disassemble_deterministic clears answers again answersAgain
          cases same
          exact ⟨rfl, rfl, rfl⟩

theorem steps_deterministic {stages : List Stage} {tree last otherLast : FileTree} {acts otherActs : List Act}
    {failure otherFailure : Option ToolError} (one : Steps verification pattern stages tree acts failure last)
    (other : Steps verification pattern stages tree otherActs otherFailure otherLast) :
    acts = otherActs ∧ failure = otherFailure ∧ last = otherLast := by
  induction one generalizing otherActs otherFailure otherLast with
  | done =>
      cases other
      exact ⟨rfl, rfl, rfl⟩
  | next step rest ih =>
      cases other with
      | next again others =>
          obtain ⟨rfl, -, rfl⟩ := step_deterministic step again
          obtain ⟨rfl, same⟩ := ih others
          exact ⟨rfl, same⟩
      | stop again => cases (step_deterministic step again).2.1
  | stop step =>
      cases other with
      | next again _ => cases (step_deterministic step again).2.1
      | stop again =>
          obtain ⟨rfl, same⟩ := step_deterministic step again
          exact ⟨rfl, same⟩

theorem plan_deterministic {versions classes otherClasses : List String} {tree last otherLast : FileTree}
    {acts otherActs : List Act} {failure otherFailure : Option ToolError}
    (one : Plan verification pattern tree versions classes acts failure last)
    (other : Plan verification pattern tree versions otherClasses otherActs otherFailure otherLast) :
    acts = otherActs ∧ failure = otherFailure ∧ last = otherLast := by
  cases one with
  | nothing =>
      cases other with
      | nothing => exact ⟨rfl, rfl, rfl⟩
      | cut again => exact nomatch extractions_nil verification ▸ again
  | cut extracting =>
      cases other with
      | nothing => exact nomatch extractions_nil verification ▸ extracting
      | cut again =>
          obtain ⟨rfl, same⟩ := steps_deterministic extracting again
          exact ⟨rfl, same⟩
      | through again _ _ => cases (steps_deterministic extracting again).2.1
  | through extracting found disassembling =>
      cases other with
      | cut again => cases (steps_deterministic extracting again).2.1
      | through again foundAgain disassemblingAgain =>
          obtain ⟨rfl, -, rfl⟩ := steps_deterministic extracting again
          rw [found] at foundAgain
          cases foundAgain
          obtain ⟨rfl, same⟩ := steps_deterministic disassembling disassemblingAgain
          exact ⟨rfl, same⟩

end Determinism

section Failures

variable {verification : Verification} {pattern : Matcher}

-- Of the calls that were made, the last one alone can have failed, and it did when the plan was cut.
def Ended (tools : Toolkit) (acts : List Act) : Option ToolError → Prop
  | none => ∀ act ∈ acts, act.failure? tools = none
  | some error => ∃ earlier call before, acts = earlier ++ [.called call before] ∧
      (∀ act ∈ earlier, act.failure? tools = none) ∧ tools.failure? call before = some error

theorem ended_prepend (tools : Toolkit) (earlier later : List Act) (failure : Option ToolError)
    (unfailing : ∀ act ∈ earlier, act.failure? tools = none) (ended : Ended tools later failure) :
    Ended tools (earlier ++ later) failure := by
  cases failure with
  | none =>
      intro act member
      exact (List.mem_append.mp member).elim (unfailing act) (ended act)
  | some error =>
      obtain ⟨between, call, before, rfl, passed, failed⟩ := ended
      refine ⟨earlier ++ between, call, before, (List.append_assoc ..).symm, ?_, failed⟩
      intro act member
      exact (List.mem_append.mp member).elim (unfailing act) (passed act)

theorem removing_unfailing (version : String) (tree : FileTree) :
    ∀ act ∈ verification.removing version tree, act.failure? verification.tools = none := by
  intro act member
  obtain ⟨path, _, rfl⟩ := List.mem_map.mp member
  rfl

theorem ended_call (call : ToolCall) (before : FileTree) (error : ToolError)
    (failed : verification.tools.failure? call before = some error) :
    Ended verification.tools [.called call before] (some error) :=
  ⟨[], call, before, rfl, fun _ member => absurd member List.not_mem_nil, failed⟩

theorem step_ended {stage : Stage} {tree last : FileTree} {acts : List Act} {failure : Option ToolError}
    (step : Step verification pattern stage tree acts failure last) : Ended verification.tools acts failure := by
  cases step with
  | noArchive cleans absent =>
      exact ended_prepend _ _ _ _ (removing_unfailing _ _) (by simp [Ended, Act.failure?])
  | extracted cleans first answers =>
      exact ended_prepend _ _ _ _ (removing_unfailing _ _) (by simp [Ended, Act.failure?, Toolkit.failure?, answers])
  | notExtracted cleans first answers =>
      refine ended_prepend _ _ _ _ (removing_unfailing _ _) (ended_prepend _ [_] [_] _ (by simp [Act.failure?]) ?_)
      exact ended_call _ _ _ (by simp [Toolkit.failure?, answers])
  | noClassFile clears absent => simp [Ended, Act.failure?]
  | disassembled clears stands answers keeps =>
      simp [Ended, Act.failure?, disassemblyOf, Toolkit.failure?, answers]
  | notDisassembled clears stands answers => exact ended_call _ _ _ (by simp [Toolkit.failure?, answers])

theorem steps_ended {stages : List Stage} {tree last : FileTree} {acts : List Act} {failure : Option ToolError}
    (steps : Steps verification pattern stages tree acts failure last) : Ended verification.tools acts failure := by
  induction steps with
  | done => exact fun act member => absurd member List.not_mem_nil
  | next step rest ih => exact ended_prepend _ _ _ _ (step_ended step) ih
  | stop step => exact step_ended step

theorem plan_ended {versions classes : List String} {tree last : FileTree} {acts : List Act}
    {failure : Option ToolError} (plan : Plan verification pattern tree versions classes acts failure last) :
    Ended verification.tools acts failure := by
  have logged : ∀ entry, ∀ act ∈ [Act.logged entry], act.failure? verification.tools = none := by
    simp [Act.failure?]
  cases plan with
  | nothing => exact logged _
  | cut extracting => exact ended_prepend _ [_] _ _ (logged _) (steps_ended extracting)
  | through extracting _ disassembling =>
      refine ended_prepend _ [_] _ _ (logged _) (ended_prepend _ _ _ _ (steps_ended extracting) ?_)
      exact ended_prepend _ [_] _ _ (logged _) (steps_ended disassembling)

end Failures

theorem read_pair_failure (verification : Verification) (tree : FileTree) (pair : String × String) (error : ToolError) :
    verification.readPair tree pair ≠ .error (.tool error) := by
  intro failed
  simp only [readPair, bind, Except.bind] at failed
  split at failed
  · next cause reading =>
      obtain ⟨_, rfl⟩ := accessing_access _ cause reading
      cases failed
  · split at failed
    · cases failed
    · split at failed
      · next cause reading =>
          obtain ⟨_, rfl⟩ := accessing_access _ cause reading
          cases failed
      · split at failed <;> cases failed

theorem compare_classes_no_tool (verification : Verification) (now : String) (versions classes : List String)
    (progress : Progress) (error : ToolError) :
    ((verification.compareClasses now versions classes).run progress).1 ≠ .error (.tool error) := by
  intro failed
  obtain ⟨pair, _, reading⟩ := verification.compare_classes_error now versions classes progress _ failed
  exact read_pair_failure verification progress.tree pair error reading

end Verification

def unpacked (folder : String) (tree : FileTree) : FileTree :=
  (tree.put (Path.steps folder ++ ["c"]) .folder).put (Path.steps folder ++ ["c", "A.class"]) (.ofText "")

def archivesTree : FileTree :=
  ⟨[(["r"], .folder), (["r", "3"], .folder), (["r", "3", "a"], .ofText ""), (["r", "1"], .folder),
    (["r", "1", "b"], .ofText ""), (["r", "1", "a"], .ofText ""), (["r", "2"], .folder), (["r", "2", "c"], .folder),
    (["r", "2", "c", "A.class"], .ofText "")], []⟩

def unreadable : ToolError :=
  .failed "javap" (.code 1) "unknown class file version"

def unpackingVerification : Verification :=
  { returningVerification with
    config := { returningVerification.config with archivePattern := "[ab]", cleanDirs := ["c"] }
    tools := ⟨fun _ folder tree => (.ok (), unpacked folder tree), fun folder _ tree =>
      (if folder = "/r/3" then .error unreadable else .ok ⟨methodCalling "n/X", listedMethod⟩, tree), "tar",
      Pattern.library⟩
    options := ⟨false, false, false⟩ }

def failedTool? : Except RunError Report → Option ToolError
  | .error (.tool error) => some error
  | _ => none

end BytecodeParity
