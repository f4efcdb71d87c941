import BytecodeParity.Run
import BytecodeParity.Proofs.ComparisonVerdict

set_option autoImplicit false

namespace BytecodeParity

open ClassRecord

def Progress.noting (progress : Progress) (entries : List LogEntry) : Progress :=
  { progress with log := progress.log ++ entries }

@[simp] theorem Progress.noting_tree (progress : Progress) (entries : List LogEntry) :
    (progress.noting entries).tree = progress.tree := rfl

@[simp] theorem Progress.noting_calls (progress : Progress) (entries : List LogEntry) :
    (progress.noting entries).calls = progress.calls := rfl

namespace Job

variable {α β : Type}

theorem run_bind (job : Job α) (next : α → Job β) (progress : Progress) :
    (job >>= next).run progress =
      match job.run progress with
      | (.ok value, reached) => (next value).run reached
      | (.error error, reached) => (.error error, reached) := by
  have opened : (job >>= next).run progress =
      match job.run progress with
      | (result, reached) => (ExceptT.bindCont next result) reached := rfl
  rw [opened]
  cases job.run progress with
  | mk result reached => cases result <;> rfl

theorem run_ask (read : FileTree → Except RunError α) (progress : Progress) :
    (ask read).run progress = (read progress.tree, progress) := rfl

theorem run_note (entries : List LogEntry) (progress : Progress) :
    (note entries).run progress = (.ok (), progress.noting entries) := rfl

theorem bind_ok_iff (job : Job α) (next : α → Job β) (progress reached : Progress) (value : β) :
    (job >>= next).run progress = (.ok value, reached) ↔
      ∃ first between, job.run progress = (.ok first, between) ∧ (next first).run between = (.ok value, reached) := by
  rw [run_bind]
  cases job.run progress with
  | mk result between =>
      cases result with
      | error error =>
          constructor
          · intro same
            cases same
          · rintro ⟨_, _, same, _⟩
            cases same
      | ok first =>
          constructor
          · intro done
            exact ⟨first, between, rfl, done⟩
          · rintro ⟨_, _, same, done⟩
            cases same
            exact done

theorem pure_ok_iff (given value : α) (progress reached : Progress) :
    (pure given : Job α).run progress = (.ok value, reached) ↔ given = value ∧ reached = progress := by
  constructor
  · intro same
    cases same
    exact ⟨rfl, rfl⟩
  · rintro ⟨rfl, rfl⟩
    rfl

theorem throw_not_ok (error : RunError) (progress reached : Progress) (value : α) :
    (throw error : Job α).run progress ≠ (.ok value, reached) := by
  intro same
  cases same

theorem ask_ok_iff (read : FileTree → Except RunError α) (progress reached : Progress) (value : α) :
    (ask read).run progress = (.ok value, reached) ↔ read progress.tree = .ok value ∧ reached = progress := by
  rw [run_ask, Prod.mk.injEq, eq_comm (a := progress)]

theorem note_ok_iff (entries : List LogEntry) (progress reached : Progress) (value : Unit) :
    (note entries).run progress = (.ok value, reached) ↔ reached = progress.noting entries := by
  rw [run_note, Prod.mk.injEq, eq_comm (a := progress.noting entries)]
  exact and_iff_right rfl

def FailsWithin (allowed : RunError → Prop) (job : Job α) : Prop :=
  ∀ progress error, (job.run progress).1 = .error error → allowed error

variable {allowed : RunError → Prop}

theorem fails_within_bind (job : Job α) (next : α → Job β) (first : FailsWithin allowed job)
    (rest : ∀ value, FailsWithin allowed (next value)) : FailsWithin allowed (job >>= next) := by
  intro progress error failed
  rw [run_bind] at failed
  cases ran : job.run progress with
  | mk result reached =>
      rw [ran] at failed
      cases result with
      | ok value => exact rest value reached error failed
      | error cause =>
          cases failed
          exact first progress error (by rw [ran])

theorem fails_within_pure (value : α) : FailsWithin allowed (pure value : Job α) := by
  intro progress error failed
  cases failed

theorem fails_within_throw (error : RunError) (isAllowed : allowed error) :
    FailsWithin allowed (throw error : Job α) := by
  intro progress other failed
  cases failed
  exact isAllowed

theorem fails_within_ask (read : FileTree → Except RunError α)
    (reads : ∀ tree error, read tree = .error error → allowed error) : FailsWithin allowed (ask read) :=
  fun progress error failed => reads progress.tree error failed

theorem fails_within_change (act : FileTree → Except RunError α × FileTree)
    (acts : ∀ tree error, (act tree).1 = .error error → allowed error) : FailsWithin allowed (change act) :=
  fun progress error failed => acts progress.tree error failed

theorem fails_within_call (tool : ToolCall) : FailsWithin allowed (call tool) := by
  intro progress error failed
  cases failed

theorem fails_within_note (entries : List LogEntry) : FailsWithin allowed (note entries) := by
  intro progress error failed
  cases failed

theorem fails_within_ite (condition : Prop) [Decidable condition] (yes no : Job α)
    (first : FailsWithin allowed yes) (second : FailsWithin allowed no) :
    FailsWithin allowed (if condition then yes else no) := by
  split
  · exact first
  · exact second

end Job

namespace Verification

variable (verification : Verification) (listings : Listings)

def extracting (pattern : Matcher) (versions : List String) : Job Unit :=
  if verification.options.skipExtract then pure () else extractVersions verification listings pattern versions

def disassembling (pairs : List (String × String)) : Job Unit :=
  if verification.options.skipDisassemble then pure () else disassemblePairs verification pairs

def preparing (pattern : Matcher) (first : String) (rest : List String) : Job (List String × List String) := do
  extracting verification listings pattern (first :: rest)
  let folder := Layout.classesDir verification.root first verification.config.classesDir
  let classes ← Job.ask fun tree => accessing (listings.classes.classes tree folder)
  Job.note [.classesFound classes]
  if classes.isEmpty then throw (.nothingToVerify (.noClasses folder))
  else
    disassembling verification (pairs (first :: rest) classes)
    return (first :: rest, classes)

theorem prepare_phases :
    verification.prepare listings = (do
      let patterns ← Job.ask fun _ => verification.patterns.mapError .badPattern
      let versions ← Job.ask fun tree =>
        accessing (listings.versions.versions tree verification.root patterns.version)
      Job.note [.versionsFound versions]
      match versions with
      | [] => throw (.nothingToVerify (.noVersions verification.root))
      | first :: rest => preparing verification listings patterns.archive first rest) := by
  unfold prepare preparing extracting disassembling
  congr 1
  funext patterns
  congr 1
  funext versions
  congr 1
  funext noted
  cases versions with
  | nil => rfl
  | cons first rest =>
      cases verification.options.skipExtract with
      | true =>
          simp only [Bool.not_true, Bool.false_eq_true, if_false, if_true, pure_bind]
          congr 1
          funext classes
          cases classes.isEmpty <;> cases verification.options.skipDisassemble <;> rfl
      | false =>
          simp only [Bool.not_false, Bool.false_eq_true, if_true, if_false]
          congr 1
          funext _
          congr 1
          funext classes
          cases classes.isEmpty <;> cases verification.options.skipDisassemble <;> rfl

theorem map_error_ok_iff {ε δ α : Type} (wrap : ε → δ) (result : Except ε α) (value : α) :
    result.mapError wrap = .ok value ↔ result = .ok value := by
  cases result <;> simp [Except.mapError]

theorem accessing_ok_iff {α : Type} (result : Except AccessError α) (value : α) :
    accessing result = .ok value ↔ result = .ok value :=
  map_error_ok_iff RunError.access result value

theorem accessing_access {α : Type} (result : Except AccessError α) (error : RunError)
    (failed : accessing result = .error error) : ∃ cause, error = .access cause := by
  cases result with
  | ok value => cases failed
  | error cause =>
      cases failed
      exact ⟨cause, rfl⟩

theorem accessing_error {α : Type} (result : Except AccessError α) (error : RunError)
    (failed : accessing result = .error error) : error ≠ .inconsistent := by
  obtain ⟨cause, rfl⟩ := accessing_access result error failed
  simp

theorem tool_error {α : Type} (result : Except ToolError α) (error : RunError)
    (failed : result.mapError .tool = .error error) : error ≠ .inconsistent := by
  cases result with
  | ok value => cases failed
  | error cause =>
      cases failed
      simp

theorem clean_version_fails (folder : String) :
    Job.FailsWithin (· ≠ .inconsistent) (cleanVersion verification folder) := by
  unfold cleanVersion
  refine Job.fails_within_bind _ _ (Job.fails_within_ask _ fun tree error failed => by cases failed) fun begun => ?_
  refine Job.fails_within_bind _ _ (Job.fails_within_note _) fun _ => ?_
  exact Job.fails_within_change _ fun tree error => accessing_error _ error

theorem extract_version_fails (listing : Listing) (pattern : Matcher) (version : String) :
    Job.FailsWithin (· ≠ .inconsistent) (extractVersion verification listing pattern version) := by
  unfold extractVersion
  refine Job.fails_within_bind _ _ (clean_version_fails verification _) fun _ => ?_
  refine Job.fails_within_bind _ _ (Job.fails_within_ask _ fun tree error => accessing_error _ error) fun found => ?_
  cases found with
  | none => exact Job.fails_within_note _
  | some archive =>
      refine Job.fails_within_bind _ _ (Job.fails_within_note _) fun _ => ?_
      exact Job.fails_within_bind _ _ (Job.fails_within_call _) fun _ =>
        Job.fails_within_change _ fun tree error => tool_error _ error

theorem extract_versions_fails (pattern : Matcher) (versions : List String) :
    Job.FailsWithin (· ≠ .inconsistent) (extractVersions verification listings pattern versions) := by
  induction versions with
  | nil => exact Job.fails_within_pure ()
  | cons version versions ih =>
      exact Job.fails_within_bind _ _ (extract_version_fails verification _ pattern version) fun _ => ih

theorem remove_stale_fails (path : String) : Job.FailsWithin (· ≠ .inconsistent) (Job.change (removeStale path)) := by
  apply Job.fails_within_change
  intro tree error failed
  unfold removeStale at failed
  split at failed
  · split at failed
    · cases failed
    · cases failed
      simp
  · cases failed

theorem write_artifact_fails (path text : String) :
    Job.FailsWithin (· ≠ .inconsistent) (Job.change (writeArtifact path text)) := by
  apply Job.fails_within_change
  intro tree error failed
  unfold writeArtifact at failed
  split at failed
  · cases failed
  · cases failed
    simp

theorem disassemble_pair_fails (version className : String) :
    Job.FailsWithin (· ≠ .inconsistent) (disassemblePair verification version className) := by
  unfold disassemblePair
  refine Job.fails_within_bind _ _ (remove_stale_fails _) fun _ => ?_
  refine Job.fails_within_bind _ _ (remove_stale_fails _) fun _ => ?_
  refine Job.fails_within_bind _ _ (Job.fails_within_ask _ fun tree error failed => by cases failed) fun present => ?_
  refine Job.fails_within_ite _ _ _ ?_ (Job.fails_within_note _)
  refine Job.fails_within_bind _ _ (Job.fails_within_call _) fun _ => ?_
  refine Job.fails_within_bind _ _ (Job.fails_within_change _ fun tree error => tool_error _ error) fun artifacts => ?_
  refine Job.fails_within_bind _ _ (write_artifact_fails _ _) fun _ => ?_
  exact Job.fails_within_bind _ _ (write_artifact_fails _ _) fun _ => Job.fails_within_note _

theorem disassemble_pairs_fails (pairs : List (String × String)) :
    Job.FailsWithin (· ≠ .inconsistent) (disassemblePairs verification pairs) := by
  induction pairs with
  | nil => exact Job.fails_within_pure ()
  | cons pair pairs ih =>
      exact Job.fails_within_bind _ _ (disassemble_pair_fails verification pair.1 pair.2) fun _ => ih

theorem preparing_fails (pattern : Matcher) (first : String) (rest : List String) :
    Job.FailsWithin (· ≠ .inconsistent) (preparing verification listings pattern first rest) := by
  unfold preparing
  refine Job.fails_within_bind _ _ ?_ fun _ => ?_
  · exact Job.fails_within_ite _ _ _ (Job.fails_within_pure ()) (extract_versions_fails verification listings pattern _)
  refine Job.fails_within_bind _ _ (Job.fails_within_ask _ fun tree error => accessing_error _ error) fun classes => ?_
  refine Job.fails_within_bind _ _ (Job.fails_within_note _) fun _ => ?_
  refine Job.fails_within_ite _ _ _ (Job.fails_within_throw _ (by simp)) ?_
  refine Job.fails_within_bind _ _ ?_ fun _ => Job.fails_within_pure _
  exact Job.fails_within_ite _ _ _ (Job.fails_within_pure ()) (disassemble_pairs_fails verification _)

theorem prepare_fails : Job.FailsWithin (· ≠ .inconsistent) (verification.prepare listings) := by
  rw [prepare_phases]
  refine Job.fails_within_bind _ _ (Job.fails_within_ask _ ?_) fun patterns => ?_
  · intro tree error failed
    cases read : verification.patterns with
    | ok patterns => simp [read, Except.mapError] at failed
    | error bad =>
        simp only [read, Except.mapError, Except.error.injEq] at failed
        simp [← failed]
  refine Job.fails_within_bind _ _ (Job.fails_within_ask _ fun tree error => accessing_error _ error) fun versions => ?_
  refine Job.fails_within_bind _ _ (Job.fails_within_note _) fun _ => ?_
  cases versions with
  | nil => exact Job.fails_within_throw _ (by simp)
  | cons first rest => exact preparing_fails verification listings patterns.archive first rest

theorem conclude_result (now : String) (mode : RunMode) (versions : List String) (compared : Except RunError Unit)
    (session : Session) (valid : session.Valid) (progress : Progress) :
    ((conclude now mode versions compared session).run progress).1 =
      compared.map fun _ => ⟨now, mode, versions, session.classes⟩ := by
  cases compared with
  | error error => rfl
  | ok done =>
      have reported := Session.finish_reports session valid now mode versions
      cases finished : session.finish now mode versions with
      | mk report noted =>
          rw [finished] at reported
          subst reported
          rw [conclude, finished]
          rfl

def concludingLog (now : String) (mode : RunMode) (versions : List String) (session : Session) :
    Except RunError Unit → List LogEntry
  | .error _ => session.log
  | .ok () => (session.finish now mode versions).2.log

theorem conclude_progress (now : String) (mode : RunMode) (versions : List String) (compared : Except RunError Unit)
    (session : Session) (progress : Progress) :
    ((conclude now mode versions compared session).run progress).2 =
      progress.noting (concludingLog now mode versions session compared) := by
  cases compared with
  | error error => rfl
  | ok done =>
      cases finished : session.finish now mode versions with
      | mk report noted =>
          rw [conclude, concludingLog, finished]
          cases report <;> rfl

end Verification

end BytecodeParity
