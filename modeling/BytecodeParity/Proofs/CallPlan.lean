import BytecodeParity.Proofs.Replay
import BytecodeParity.Proofs.RunStages

/-!
The plan of a run's tool calls. The versions are unpacked in their order, each from its first archive,
and then the pairs of versions and classes are disassembled in theirs; what prepares a run goes through
this plan, unless a file operation fails.
-/

set_option autoImplicit false

namespace BytecodeParity

namespace Verification

section Phases

variable {verification : Verification} {pattern : Matcher}

def extractions (verification : Verification) (versions : List String) : List Stage :=
  if verification.options.skipExtract then [] else versions.map .extraction

def disassemblies (verification : Verification) (versions classes : List String) : List Stage :=
  if verification.options.skipDisassemble then []
  else (pairs versions classes).map fun pair => .disassembly pair.1 pair.2

theorem extractions_nil (verification : Verification) : verification.extractions [] = [] := by
  simp [extractions]

theorem disassemblies_nil (verification : Verification) (versions : List String) :
    verification.disassemblies versions [] = [] := by
  simp [disassemblies, pairs]

theorem extracting_follows (verification : Verification) (pattern : Matcher) (versions : List String) :
    Follows verification pattern (verification.extractions versions) (verification.extracting .plain pattern versions) := by
  rw [extractions, extracting]
  split
  · exact follows_done
  · induction versions with
    | nil => exact follows_done
    | cons version versions ih => exact follows_next (extract_version_performs version) ih

theorem disassemble_pairs_follow (verification : Verification) (pattern : Matcher) (pairs : List (String × String)) :
    Follows verification pattern (pairs.map fun pair => .disassembly pair.1 pair.2)
      (verification.disassemblePairs pairs) := by
  induction pairs with
  | nil => exact follows_done
  | cons pair pairs ih => exact follows_next (disassemble_pair_performs pair.1 pair.2) ih

theorem disassembling_follows (verification : Verification) (pattern : Matcher) (versions classes : List String) :
    Follows verification pattern (verification.disassemblies versions classes)
      (verification.disassembling (pairs versions classes)) := by
  rw [disassemblies, disassembling]
  split
  · exact follows_done
  · exact disassemble_pairs_follow verification pattern (pairs versions classes)

-- What a run does before it compares, with the classes that it finds: the stages of the versions come
-- first, and when all of them have gone through, those of the pairs.
inductive Plan (verification : Verification) (pattern : Matcher) (tree : FileTree) :
    List String → List String → List Act → Option ToolError → FileTree → Prop where
  | nothing : Plan verification pattern tree [] [] [.logged (.versionsFound [])] none tree
  | cut {versions : List String} {acts : List Act} {error : ToolError} {last : FileTree}
      (extracting : Steps verification pattern (verification.extractions versions) tree acts (some error) last) :
      Plan verification pattern tree versions [] (.logged (.versionsFound versions) :: acts) (some error) last
  | through {first : String} {rest classes : List String} {acts later : List Act} {extracted last : FileTree}
      {failure : Option ToolError}
      (extracting : Steps verification pattern (verification.extractions (first :: rest)) tree acts none extracted)
      (found : Discovery.classes extracted
        (Layout.classesDir verification.root first verification.config.classesDir) = .ok classes)
      (disassembling : Steps verification pattern (verification.disassemblies (first :: rest) classes) extracted later
        failure last) :
      Plan verification pattern tree (first :: rest) classes
        (.logged (.versionsFound (first :: rest)) :: acts ++ .logged (.classesFound classes) :: later) failure last

def Gives (versions classes : List String) : Option ToolError → Except RunError (List String × List String) → Prop
  | some error, result => result = .error (.tool error)
  | none, result => result = .ok (versions, classes) ∨ ∃ found, result = .error (.nothingToVerify found)

theorem preparing_plan (verification : Verification) (pattern : Matcher) (first : String) (rest : List String)
    (tree : FileTree) (progress : Progress) :
    let noted := progress.after [.logged (.versionsFound (first :: rest))] tree
    (∃ error reached,
      (preparing verification .plain pattern first rest).run noted = (.error (.access error), reached)) ∨
      ∃ classes acts failure last result, Plan verification pattern tree (first :: rest) classes acts failure last ∧
        (preparing verification .plain pattern first rest).run noted = (result, progress.after acts last) ∧
        Gives (first :: rest) classes failure result := by
  intro noted
  rw [preparing]
  rcases extracting_follows verification pattern (first :: rest) noted with
    ⟨error, reached, failed⟩ | ⟨acts, failure, extracted, extractions, ran⟩
  · exact .inl ⟨error, reached, Job.bind_failed _ failed⟩
  rw [Progress.after_append, List.singleton_append] at ran
  cases failure with
  | some error => exact .inr ⟨[], _, some error, extracted, _, .cut extractions, Job.bind_failed _ ran, rfl⟩
  | none =>
      have plain : Listings.plain.classes.classes = Discovery.classes := rfl
      rw [Job.bind_ran _ ran, Job.run_bind, Progress.after_ask, plain]
      cases found : Discovery.classes extracted
          (Layout.classesDir verification.root first verification.config.classesDir) with
      | error cause => exact .inl ⟨cause, _, rfl⟩
      | ok classes =>
          simp only [accessing, Except.mapError]
          rw [Job.run_bind, Progress.after_note]
          cases classes with
          | nil =>
              have disassemblies : Steps verification pattern (verification.disassemblies (first :: rest) []) extracted
                  [] none extracted := disassemblies_nil verification (first :: rest) ▸ .done
              exact .inr ⟨[], _, none, extracted, _, .through extractions found disassemblies, rfl, .inr ⟨_, rfl⟩⟩
          | cons className classes =>
              simp only [List.isEmpty_cons, Bool.false_eq_true, if_false, List.map_cons, List.map_nil]
              rcases disassembling_follows verification pattern (first :: rest) (className :: classes)
                (progress.after _ extracted) with
                ⟨error, reached, failed⟩ | ⟨later, failure, last, disassemblies, done⟩
              · exact .inl ⟨error, reached, Job.bind_failed _ failed⟩
              · rw [Progress.after_append, List.append_assoc, List.singleton_append] at done
                have plan := Plan.through extractions found disassemblies
                cases failure with
                | some error => exact .inr ⟨_, _, some error, last, _, plan, Job.bind_failed _ done, rfl⟩
                | none => exact .inr ⟨_, _, none, last, _, plan, Job.bind_ran _ done, .inl rfl⟩

theorem prepare_plan (verification : Verification) (patterns : NamePatterns) (progress : Progress)
    (valid : verification.patterns = .ok patterns) :
    (∃ error reached, (verification.prepare .plain).run progress = (.error (.access error), reached)) ∨
      ∃ versions classes acts failure last result,
        Discovery.versions progress.tree verification.root patterns.version = .ok versions ∧
          Plan verification patterns.archive progress.tree versions classes acts failure last ∧
          (verification.prepare .plain).run progress = (result, progress.after acts last) ∧
          Gives versions classes failure result := by
  have plain : Listings.plain.versions.versions = Discovery.versions := rfl
  rw [prepare_phases, Job.run_bind, Job.run_ask, valid, plain]
  simp only [Except.mapError, Job.run_bind, Job.run_ask]
  cases listed : Discovery.versions progress.tree verification.root patterns.version with
  | error cause => exact .inl ⟨cause, _, rfl⟩
  | ok versions =>
      have noted := progress.after_note [] progress.tree [.versionsFound versions]
      rw [progress.after_nil] at noted
      simp only [accessing, Except.mapError, noted]
      cases versions with
      | nil => exact .inr ⟨[], [], _, none, progress.tree, _, rfl, .nothing, rfl, .inr ⟨_, rfl⟩⟩
      | cons first rest =>
          rcases preparing_plan verification patterns.archive first rest progress.tree progress with
            failed | ⟨classes, acts, failure, last, result, plan, done, gives⟩
          · exact .inl failed
          · exact .inr ⟨first :: rest, classes, acts, failure, last, result, rfl, plan, done, gives⟩

theorem prepared_plan (verification : Verification) (progress reached : Progress) (versions classes : List String)
    (prepared : (verification.prepare .plain).run progress = (.ok (versions, classes), reached)) :
    ∃ patterns acts, verification.patterns = .ok patterns ∧
      Discovery.versions progress.tree verification.root patterns.version = .ok versions ∧
      Plan verification patterns.archive progress.tree versions classes acts none reached.tree ∧
      reached = progress.after acts reached.tree := by
  cases valid : verification.patterns with
  | error bad =>
      rw [prepare_phases, Job.run_bind, Job.run_ask, valid] at prepared
      cases prepared
  | ok patterns =>
      rcases prepare_plan verification patterns progress valid with
        ⟨error, failedAt, failed⟩ | ⟨found, known, acts, failure, last, result, listed, plan, ran, gives⟩
      · rw [failed] at prepared
        cases prepared
      rw [ran] at prepared
      cases prepared
      cases failure with
      | some error => cases gives
      | none =>
          rcases gives with same | ⟨nothing, same⟩
          · cases same
            exact ⟨patterns, acts, rfl, listed, plan, rfl⟩
          · cases same

end Phases

end Verification

end BytecodeParity
