import BytecodeParity.Proofs.HaltedRun

set_option autoImplicit false

namespace BytecodeParity

open ClassRecord

namespace Session

section Readings

variable {ε α : Type}

def builtRecord? : Except ε Reading → Option ClassRecord
  | .ok (.built _ build) => build.outcome.toOption
  | _ => none

def failedBuild? : Except ε Reading → Option MissingBody
  | .ok (.built _ build) =>
      match build.outcome with
      | .ok _ => none
      | .error missing => some missing
  | _ => none

def processed (reading : Except ε Reading) : Bool :=
  (builtRecord? reading).isSome || (failedBuild? reading).isSome

theorem event_parts (reading : Except ε Reading) :
    (event? reading).bind Event.record? = builtRecord? reading ∧
      (event? reading).bind Event.missing? = failedBuild? reading ∧
      (event? reading).isSome = processed reading := by
  cases reading with
  | error error => exact ⟨rfl, rfl, rfl⟩
  | ok reading =>
      cases reading with
      | absent version className => exact ⟨rfl, rfl, rfl⟩
      | built scope build =>
          simp only [event?, builtRecord?, failedBuild?, processed]
          cases build.outcome <;> exact ⟨rfl, rfl, rfl⟩

theorem event_of_built (reading : Except ε Reading) (event : Event) (brings : event? reading = some event) :
    ∃ scope build, reading = .ok (.built scope build) ∧ event = .ofOutcome scope.className? build.outcome := by
  cases reading with
  | error error => cases brings
  | ok reading =>
      cases reading with
      | absent version className => cases brings
      | built scope build => exact ⟨scope, build, rfl, (Option.some.inj brings).symm⟩

theorem built_record_iff (reading : Except ε Reading) (record : ClassRecord) :
    builtRecord? reading = some record ↔ event? reading = some (.offered record) := by
  rw [← (event_parts reading).1]
  cases event? reading with
  | none => simp
  | some event => cases event <;> simp [Event.record?]

theorem events_records (read : α → Except ε Reading) (inputs : List α) :
    (inputs.filterMap fun input => event? (read input)).filterMap Event.record? =
      inputs.filterMap fun input => builtRecord? (read input) := by
  rw [List.filterMap_filterMap]
  exact List.filterMap_congr fun input _ => (event_parts (read input)).1

theorem events_missing (read : α → Except ε Reading) (inputs : List α) :
    (inputs.filterMap fun input => event? (read input)).filterMap Event.missing? =
      inputs.filterMap fun input => failedBuild? (read input) := by
  rw [List.filterMap_filterMap]
  exact List.filterMap_congr fun input _ => (event_parts (read input)).2.1

theorem events_nonempty_iff (read : α → Except ε Reading) (inputs : List α) :
    (inputs.filterMap fun input => event? (read input)) ≠ [] ↔ ∃ input ∈ inputs, processed (read input) := by
  simp only [ne_eq, List.filterMap_eq_nil_iff, not_forall, ← (event_parts _).2.2, Option.isSome_iff_ne_none,
    exists_prop]

theorem events_versions (read : α → Except ε Reading) (version : α → String) (inputs : List α)
    (named : ∀ input event, event? (read input) = some event → event.version = version input) :
    (inputs.filterMap fun input => event? (read input)).map Event.version =
      (inputs.filter fun input => processed (read input)).map version := by
  induction inputs with
  | nil => rfl
  | cons input inputs ih =>
      have same := (event_parts (read input)).2.2
      cases brings : event? (read input) with
      | none =>
          rw [brings] at same
          simpa [brings, ← same] using ih
      | some event =>
          rw [brings] at same
          simpa [brings, ← same, named input event brings] using ih

end Readings

end Session

namespace ClassReport

structure Exact (records : List ClassRecord) (failures : List MissingBody) (versions : List String)
    (report : ClassReport) : Prop where
  agreed : report.versions = records.head?.toList.map (·.version) ++ (agreeing records).map (·.2.version)
  diverged : report.divergences.map (fun divergence => (divergence.baselineVersion, divergence.version)) =
    (differing records).map fun pair => (pair.1.version, pair.2.version)
  failed : report.buildFailures = failures.map .ofMissing
  running : report.halted = false
  complete :
    (report.versions ++ report.divergences.map (·.version) ++ report.buildFailures.map (·.version)).Perm versions

end ClassReport

namespace Session

theorem Track.follow_exact (className : Option String) (events : List Event)
    (own : ∀ event ∈ events, event.className? = className)
    (good : ∀ record, .offered record ∈ events → record.WellFormed) (report : ClassReport)
    (kept : (initial.follow true events).report = some report) :
    report.Exact (events.filterMap Event.record?) (events.filterMap Event.missing?) (events.map Event.version) := by
  have entered := follow_report_eq true className events own report kept
  rw [ReportEntry.reached_all] at entered
  have lists : report.Lists (ledger [] events) := entered ▸ ClassReport.enter_all_lists true className _
  obtain ⟨agreed, diverged⟩ := ledger_from_start events good
  refine { agreed := ?_, diverged := ?_, failed := ?_, running := ?_, complete := ?_ }
  · rw [lists.versions, agreed]
  · rw [lists.divergences, diverged]
  · rw [lists.buildFailures, ledger_failures]
  · rw [entered, ClassReport.enter_all_halted]
    split <;> rfl
  · rw [lists.versions, lists.divergences, lists.buildFailures, ← ledger_versions [] events]
    exact ReportEntry.sorted_perm _

-- A class that is not halted in the end was never halted.
theorem Track.follow_records (keepGoing : Bool) (track : Track) (events : List Event)
    (running : (track.follow keepGoing events).halted = false) :
    (track.follow keepGoing events).records = track.records ++ events.filterMap Event.record? := by
  induction events generalizing track with
  | nil => exact (List.append_nil _).symm
  | cons event events ih =>
      by_cases halted : track.halted
      · rw [follow_halted keepGoing track _ halted, halted] at running
        cases running
      · rw [follow, if_neg halted] at running ⊢
        rw [ih _ running, apply_records, List.append_assoc]
        cases event <;> rfl

section Comparison

variable {ε α : Type} {className : α → Option String} {read : α → Except ε Reading}

theorem compare_report (faithful : Faithful className read) (inputs : List α) (keepGoing : Bool) (last : Session)
    (done : compare className read inputs (start keepGoing) = (.ok (), last)) (name : Option String) :
    last.report? name = (Track.initial.follow keepGoing (classEvents read inputs name)).report :=
  congrArg Track.report ((compare_from_start faithful inputs keepGoing last done).2 name)

theorem reported_iff (faithful : Faithful className read) (inputs : List α) (keepGoing : Bool) (last : Session)
    (done : compare className read inputs (start keepGoing) = (.ok (), last)) (name : Option String) :
    (∃ report ∈ last.classes, report.className = name) ↔
      ∃ input ∈ inputs.filter (fun input => className input = name), processed (read input) := by
  have reported : (∃ report ∈ last.classes, report.className = name) ↔ (last.report? name).isSome := by
    simp [report?]
  rw [reported, compare_report faithful inputs keepGoing last done name, Track.follow_reported,
    class_events_of_own faithful, events_nonempty_iff]
  simp [Track.initial]

structure ReportsExactly (name : Option String) (read : α → Except ε Reading) (version : α → String)
    (own : List α) (reports : List ClassReport) : Prop where
  readable : ∀ input ∈ own, ∃ reading, read input = .ok reading
  present : (∃ report ∈ reports, report.className = name) ↔ ∃ input ∈ own, processed (read input)
  single : (reports.filter fun report => report.className = name).length ≤ 1
  exactly : ∀ report ∈ reports, report.className = name →
    report.Exact (own.filterMap fun input => builtRecord? (read input))
      (own.filterMap fun input => failedBuild? (read input))
      ((own.filter fun input => processed (read input)).map version)

theorem compare_exact (faithful : Faithful className read) (version : α → String)
    (named : ∀ input event, event? (read input) = some event → event.version = version input) (inputs : List α)
    (last : Session) (done : compare className read inputs (start true) = (.ok (), last)) (name : Option String) :
    ReportsExactly name read version (inputs.filter fun input => className input = name) last.classes := by
  obtain ⟨valid, -⟩ := compare_from_start faithful inputs true last done
  have followed := compare_report faithful inputs true last done name
  have events := class_events_of_own faithful inputs name
  refine { readable := ?_, present := reported_iff faithful inputs true last done name, single := ?_, exactly := ?_ }
  · intro input member
    exact compare_reads_all faithful inputs last done input (List.mem_filter.mp member).1
  · have once := List.nodup_iff_count_le_one.mp valid.distinct name
    rw [← List.countP_eq_length_filter]
    simpa only [List.count, List.countP_map, Function.comp_def, beq_eq_decide] using once
  · intro report member same
    have kept := report_of_mem last valid report member
    rw [same, followed] at kept
    have exact := Track.follow_exact name _ (class_events_own inputs name) (class_events_good faithful inputs name)
      report kept
    rwa [events, events_records, events_missing, events_versions read version _ named] at exact

-- Of a class that is still compared everything that was built has been seen.
theorem compare_history (faithful : Faithful className read) (inputs : List α) (keepGoing : Bool) (last : Session)
    (done : compare className read inputs (start keepGoing) = (.ok (), last)) (name : Option String)
    (running : last.isHalted name = false) :
    last.history name =
      (inputs.filter fun input => className input = name).filterMap fun input => builtRecord? (read input) := by
  obtain ⟨valid, tracked⟩ := compare_from_start faithful inputs keepGoing last done
  rw [is_halted_eq last valid, tracked name] at running
  have followed : last.history name = (Track.initial.follow keepGoing (classEvents read inputs name)).records :=
    congrArg Track.records (tracked name)
  rw [followed, Track.follow_records _ _ _ running, class_events_of_own faithful, events_records]
  rfl

-- What failed in between has left the baseline as it was.
theorem compare_baseline (faithful : Faithful className read) (inputs : List α) (last : Session)
    (done : compare className read inputs (start true) = (.ok (), last)) (name : Option String) :
    last.baselines.find? name =
      ((inputs.filter fun input => className input = name).filterMap
        fun input => builtRecord? (read input)).getLast? := by
  obtain ⟨valid, tracked⟩ := compare_from_start faithful inputs true last done
  have running : last.isHalted name = false := by
    rw [is_halted_eq last valid, tracked name]
    exact Track.follow_running _ _ rfl
  rw [valid.baseline name, compare_history faithful inputs true last done name running]

end Comparison

end Session

namespace Disassembly

theorem build_event_version (startsMember : String → Bool) (namespacePrefix version : String)
    (className : Option String) (signatures lines : List String) :
    (Session.Event.ofOutcome className
      (build startsMember namespacePrefix version className signatures lines).outcome).version = version := by
  simp only [build]
  cases signatures.find? fun signature => (body? startsMember signatures lines signature).isNone with
  | none => exact ClassRecord.of_methods_version version className _
  | some signature => rfl

theorem build_single_event_version (namespacePrefix version : String) (disassembly : List String) :
    (Session.Event.ofOutcome none (buildSingle namespacePrefix version disassembly).outcome).version = version := by
  have sorted : ∀ outcome : Except MissingBody ClassRecord,
      (Session.Event.ofOutcome none (outcome.map ClassRecord.sortMethods)).version =
        (Session.Event.ofOutcome none outcome).version := by
    intro outcome
    cases outcome <;> rfl
  rw [buildSingle, sorted, build_event_version]

end Disassembly

namespace Verification

theorem read_pair_version (verification : Verification) (tree : FileTree) (pair : String × String)
    (event : Session.Event) (brings : Session.event? (verification.readPair tree pair) = some event) :
    event.version = pair.1 := by
  obtain ⟨scope, build, read, rfl⟩ := Session.event_of_built _ event brings
  obtain ⟨listing, disassembly, rfl, rfl⟩ := read_pair_built verification tree pair.1 pair.2 scope build read
  exact Disassembly.build_event_version _ _ _ _ _ _

theorem run_exact (verification : Verification) (now : String) (tree : FileTree) (report : Report)
    (keeps : verification.options.keepGoing = true) (reported : (verification.run now tree).1 = .ok report) :
    ∃ classes, ((verification.prepare .plain).run ⟨tree, [], []⟩).1 = .ok (report.versions, classes) ∧
      ∀ className, classes.count className = 1 →
        Session.ReportsExactly (some className) (verification.readPair (verification.run now tree).2.tree) (·.1)
          (report.versions.map fun version => (version, className)) report.classes := by
  obtain ⟨classes, last, prepared, done, same⟩ := run_compared verification now tree report reported
  refine ⟨classes, prepared, fun className once => ?_⟩
  rw [compared, keeps] at done
  have exact := Session.compare_exact (read_pair_faithful verification _) (·.1) (read_pair_version verification _)
    (pairs report.versions classes) last done (some className)
  simp only [Option.some.injEq, pairs_of_class report.versions classes className once] at exact
  rwa [same]

end Verification

namespace SingleRun

theorem read_input_version (namespacePrefix : String) (tree : FileTree) (input : SingleInput)
    (event : Session.Event) (brings : Session.event? (readInput namespacePrefix tree input) = some event) :
    event.version = input.version := by
  obtain ⟨scope, build, read, rfl⟩ := Session.event_of_built _ event brings
  obtain ⟨lines, rfl, rfl⟩ := read_input_built namespacePrefix tree input scope build read
  exact Disassembly.build_single_event_version _ _ _

theorem run_exact (namespacePrefix : String) (inputs : List SingleInput) (now : String) (tree : FileTree)
    (report : Report) (reported : (run namespacePrefix true inputs now tree).1 = .ok report) :
    Session.ReportsExactly none (readInput namespacePrefix tree) (·.version) inputs report.classes := by
  obtain ⟨_, last, done, rfl⟩ := (run_ok_iff _ _ _ _ _ _).mp reported
  simpa using Session.compare_exact (read_input_faithful namespacePrefix tree) (·.version)
    (read_input_version namespacePrefix tree) inputs last done none

end SingleRun

-- The inputs of a class that is found once are its pairs with the versions in their order. The records
-- are read from the tree as the run leaves it.
theorem keep_going_report_exact :
    (∀ (verification : Verification) (now : String) (tree : FileTree) (report : Report),
      verification.options.keepGoing = true → (verification.run now tree).1 = .ok report →
        ∃ classes, ((verification.prepare .plain).run ⟨tree, [], []⟩).1 = .ok (report.versions, classes) ∧
          ∀ className, classes.count className = 1 →
            Session.ReportsExactly (some className) (verification.readPair (verification.run now tree).2.tree) (·.1)
              (report.versions.map fun version => (version, className)) report.classes) ∧
    (∀ (namespacePrefix : String) (inputs : List SingleInput) (now : String) (tree : FileTree) (report : Report),
      (SingleRun.run namespacePrefix true inputs now tree).1 = .ok report →
        Session.ReportsExactly none (SingleRun.readInput namespacePrefix tree) (·.version) inputs report.classes) ∧
    ∀ (verification : Verification) (tree : FileTree) (inputs : List (String × String)) (last : Session),
      verification.options.keepGoing = true → verification.compared tree inputs = (.ok (), last) →
        ∀ className, last.baselines.find? (some className) =
          ((inputs.filter fun pair => pair.2 = className).filterMap fun pair =>
            Session.builtRecord? (verification.readPair tree pair)).getLast? := by
  refine ⟨Verification.run_exact, SingleRun.run_exact, ?_⟩
  intro verification tree inputs last keeps done className
  rw [Verification.compared, keeps] at done
  simpa only [Option.some.injEq] using
    Session.compare_baseline (Verification.read_pair_faithful verification tree) inputs last done (some className)

def unevenPairs : List (String × String) :=
  [("1", "A"), ("2", "A"), ("3", "A"), ("4", "A"), ("5", "A")]

set_option maxRecDepth 10000 in
theorem uneven_prepared :
    (((returningVerification.keeping true).prepare .plain).run ⟨unevenTree, [], []⟩).1 =
      .ok (["1", "2", "3", "4", "5"], ["A"]) := by decide +kernel

theorem keep_going_report_exact_uneven :
    (∃ report, ((returningVerification.keeping true).run "noon" unevenTree).1 = .ok report ∧
      outline report = [(["1", "5"], ["4"], ["3"], false)] ∧
      Session.ReportsExactly (some "A") ((returningVerification.keeping true).readPair
        ((returningVerification.keeping true).run "noon" unevenTree).2.tree) (·.1) unevenPairs report.classes) ∧
    (∃ report, (SingleRun.run "n/" true unchangedInputs "noon" unevenTree).1 = .ok report ∧
      outline report = [(["1", "4"], [], [], false)] ∧
      Session.ReportsExactly none (SingleRun.readInput "n/" unevenTree) (·.version) unchangedInputs report.classes) ∧
    ∃ last, (returningVerification.keeping true).compared unevenTree (unevenPairs.take 3) = (.ok (), last) ∧
      (last.baselines.find? (some "A")).map (·.version) = some "1" := by
  obtain ⟨report, ran, outlined⟩ := outlined_report _ _ uneven_outline
  obtain ⟨single, ranSingle, outlinedSingle⟩ := outlined_report _ _ unchanged_outline
  refine ⟨⟨report, ran, outlined, ?_⟩, ⟨single, ranSingle, outlinedSingle, ?_⟩, ?_⟩
  · obtain ⟨classes, prepared, exact⟩ :=
      keep_going_report_exact.1 (returningVerification.keeping true) "noon" unevenTree report rfl ran
    obtain ⟨versions, rfl⟩ := Prod.mk.inj (Except.ok.inj (uneven_prepared.symm.trans prepared))
    have listed := exact "A" rfl
    rwa [← versions] at listed
  · exact keep_going_report_exact.2.1 "n/" unchangedInputs "noon" unevenTree single ranSingle
  · have reached : ((returningVerification.keeping true).compared unevenTree (unevenPairs.take 3)).1 = .ok () := by
      decide +kernel
    generalize done : (returningVerification.keeping true).compared unevenTree (unevenPairs.take 3) = outcome at reached
    obtain ⟨result, last⟩ := outcome
    obtain rfl : result = .ok () := reached
    refine ⟨last, rfl, ?_⟩
    rw [keep_going_report_exact.2.2 (returningVerification.keeping true) unevenTree (unevenPairs.take 3) last rfl done]
    decide +kernel

end BytecodeParity
