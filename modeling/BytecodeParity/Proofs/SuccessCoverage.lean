import BytecodeParity.Proofs.KeepGoingReport
import BytecodeParity.Report.Text

/-!
What a successful report covers. Every class whose disassembly is kept for some version has an entry
with all these versions; a class that is kept for no version has none, and the run succeeds without
it, with a notice for each of its versions.
-/

set_option autoImplicit false

namespace BytecodeParity

open ClassRecord

namespace ReportEntry

theorem reached_undiverged (keepGoing : Bool) (entries : List ReportEntry)
    (undiverged : (reached keepGoing entries).filterMap divergence? = []) : reached keepGoing entries = entries := by
  induction entries with
  | nil => rfl
  | cons entry entries ih =>
      cases entry with
      | agreed version => exact congrArg _ (ih undiverged)
      | failed failure => exact congrArg _ (ih undiverged)
      | diverged divergence => cases undiverged

theorem agreed_all (entries : List ReportEntry) (undiverged : entries.filterMap divergence? = [])
    (unfailed : entries.filterMap failure? = []) : entries.filterMap agreed? = entries.map version := by
  induction entries with
  | nil => rfl
  | cons entry entries ih =>
      cases entry with
      | agreed version => exact congrArg _ (ih undiverged unfailed)
      | diverged divergence => cases undiverged
      | failed failure => cases unfailed

end ReportEntry

theorem mem_notices_of {notice : Notice} {log : List LogEntry} (logged : .notice notice ∈ log) :
    notice ∈ noticesOf log :=
  List.mem_filterMap.mpr ⟨_, logged, rfl⟩

namespace Session

theorem processed_built {ε : Type} (scope : BuildScope) (build : Build) :
    processed (.ok (.built scope build) : Except ε Reading) = true := by
  rw [processed, builtRecord?, failedBuild?]
  cases build.outcome <;> rfl

theorem Track.follow_agreed (keepGoing : Bool) (className : Option String) (events : List Event)
    (own : ∀ event ∈ events, event.className? = className) (report : ClassReport)
    (kept : (initial.follow keepGoing events).report = some report) (consistent : report.isConsistent) :
    report.versions = events.map Event.version := by
  have entered := follow_report_eq keepGoing className events own report kept
  have lists : report.Lists (ReportEntry.reached keepGoing (ledger [] events)) :=
    entered ▸ ClassReport.enter_all_lists keepGoing className _
  rw [ClassReport.isConsistent, Bool.and_eq_true, List.isEmpty_iff, List.isEmpty_iff, lists.divergences,
    lists.buildFailures] at consistent
  obtain ⟨undiverged, unfailed⟩ := consistent
  have all := ReportEntry.reached_undiverged keepGoing _ undiverged
  rw [all] at undiverged unfailed
  rw [lists.versions, all, ReportEntry.agreed_all _ undiverged unfailed, ledger_versions]

theorem log_prefix_apply (session : Session) (event : Event) : session.log <+: (session.apply event).log := by
  cases event with
  | failed className missing => exact List.prefix_append _ _
  | offered record =>
      simp only [apply, offer]
      split <;> exact List.prefix_append _ _

theorem log_prefix_take (session : Session) (reading : Reading) : session.log <+: (session.take reading).log := by
  cases reading with
  | absent version className => exact List.prefix_append _ _
  | built scope build =>
      rw [take_built]
      have noted : session.log <+: (session.note (buildEntries scope build)).log := List.prefix_append _ _
      exact noted.trans (log_prefix_apply _ _)

section Comparison

variable {ε α : Type} {className : α → Option String} {read : α → Except ε Reading}

theorem log_prefix_compare (inputs : List α) (session : Session) :
    session.log <+: (compare className read inputs session).2.log := by
  induction inputs generalizing session with
  | nil => exact List.prefix_rfl
  | cons input inputs ih =>
      rw [compare]
      split
      · exact ih session
      · cases read input with
        | error error => exact List.prefix_rfl
        | ok reading => exact (log_prefix_take session reading).trans (ih _)

theorem compare_stays_halted (faithful : Faithful className read) (inputs : List α) (session last : Session)
    (valid : session.Valid) (done : compare className read inputs session = (.ok (), last)) (name : Option String)
    (halted : session.isHalted name) : last.isHalted name := by
  have lastValid : last.Valid := by simpa [done] using compare_valid faithful inputs session valid
  rw [is_halted_eq session valid] at halted
  rw [is_halted_eq last lastValid, compare_track faithful inputs session last valid done name,
    Track.follow_halted _ _ _ halted]
  exact halted

-- An input was not passed over where its class is not halted in the end: it was read, and what is absent
-- was noticed.
theorem compare_unhalted (faithful : Faithful className read) (inputs : List α) (session last : Session)
    (valid : session.Valid) (done : compare className read inputs session = (.ok (), last)) (input : α)
    (member : input ∈ inputs) (unhalted : last.isHalted (className input) = false) :
    ∃ reading, read input = .ok reading ∧
      ∀ version absentClass, reading = .absent version absentClass →
        .noDisassembly version absentClass ∈ last.notices := by
  induction inputs generalizing session with
  | nil => cases member
  | cons first inputs ih =>
      have halts := compare_stays_halted faithful (first :: inputs) session last valid done (className input)
      rcases compare_cons_done done with ⟨halted, done⟩ | ⟨running, reading, readEq, done⟩
      · rcases List.mem_cons.mp member with rfl | later
        · simp [halts halted] at unhalted
        · exact ih session valid done later
      · rcases List.mem_cons.mp member with rfl | later
        · refine ⟨reading, readEq, ?_⟩
          rintro version absentClass rfl
          have kept : (session.take (.absent version absentClass)).log <+: last.log := by
            have grown := congrArg (fun outcome => outcome.2.log) done
            exact grown ▸ log_prefix_compare inputs (session.take (.absent version absentClass))
          exact mem_notices_of (kept.subset (List.mem_append_right _ (by simp)))
        · exact ih _ (read_valid faithful session valid first reading running readEq) done later

theorem consistent_unhalted (session : Session) (valid : session.Valid)
    (consistent : session.classes.all ClassReport.isConsistent) (name : Option String) :
    session.isHalted name = false := by
  rw [is_halted_eq session valid, ← Bool.not_eq_true]
  intro halted
  have broken := (valid.sound name).haltedDiverges halted
  rw [(all_consistent_iff session valid).mp consistent name] at broken
  cases broken

theorem compare_agreed (faithful : Faithful className read) (version : α → String)
    (named : ∀ input event, event? (read input) = some event → event.version = version input) (inputs : List α)
    (keepGoing : Bool) (last : Session)
    (done : compare className read inputs (start keepGoing) = (.ok (), last)) (name : Option String)
    (report : ClassReport) (reported : last.report? name = some report) (consistent : report.isConsistent) :
    report.versions =
      ((inputs.filter fun input => className input = name).filter fun input => processed (read input)).map
        version := by
  have kept := (compare_report faithful inputs keepGoing last done name).symm.trans reported
  rw [Track.follow_agreed keepGoing name _ (class_events_own inputs name) report kept consistent,
    class_events_of_own faithful, events_versions read version _ named]

end Comparison

end Session

namespace Verification

theorem conclude_adds_log (now : String) (mode : RunMode) (versions : List String)
    (compared : Except RunError Unit) (session : Session) (progress : Progress) :
    progress.log ++ session.log <+: ((conclude now mode versions compared session).run progress).2.log := by
  rw [conclude_progress]
  refine (List.prefix_append_right_inj _).mpr ?_
  cases compared with
  | error error => exact List.prefix_rfl
  | ok done => exact List.prefix_append _ _

theorem conclude_notices (now : String) (mode : RunMode) (versions : List String) (session : Session)
    (progress : Progress) :
    session.notices ⊆ ((conclude now mode versions (.ok ()) session).run progress).2.notices :=
  fun _ member => ((conclude_adds_log now mode versions (.ok ()) session progress).filterMap _).subset
    (((List.suffix_append progress.log session.log).filterMap _).subset member)

def isKept (verification : Verification) (tree : FileTree) (pair : String × String) : Bool :=
  tree.isPresent (Layout.artifactPaths verification.root pair.1 pair.2).disassembly

theorem read_lines_present (tree : FileTree) (path : String) (lines : Option (List String))
    (read : Discovery.readLines tree path = .ok lines) : lines.isSome = tree.isPresent path := by
  rw [Discovery.readLines, FileTree.readText, FileTree.readBytes] at read
  rw [FileTree.isPresent]
  cases located : tree.locate true path with
  | error cause =>
      rw [located] at read
      cases cause <;> cases read
      rfl
  | ok found =>
      rw [located] at read
      obtain ⟨location, entry⟩ := found
      cases entry with
      | folder => cases read
      | link target => cases read
      | file content executable =>
          simp only at read
          cases decoded : String.fromUTF8? content with
          | none =>
              rw [decoded] at read
              cases read
          | some text =>
              rw [decoded] at read
              cases read
              rfl

theorem read_pair_kept (verification : Verification) (tree : FileTree) (pair : String × String) (reading : Reading)
    (read : verification.readPair tree pair = .ok reading) :
    Session.processed (verification.readPair tree pair) = verification.isKept tree pair ∧
      (verification.isKept tree pair = false → reading = .absent pair.1 pair.2) := by
  have whole := read
  simp only [readPair, bind, Except.bind] at read
  split at read
  · cases read
  · next disassembly reads =>
      have kept := read_lines_present tree _ disassembly ((accessing_ok_iff _ _).mp reads)
      rw [whole, isKept, ← kept]
      cases disassembly with
      | none =>
          cases read
          exact ⟨rfl, fun _ => rfl⟩
      | some lines =>
          simp only at read
          split at read
          · cases read
          · split at read
            · cases read
            · cases read
              exact ⟨Session.processed_built _ _, by simp⟩

section Consistent

variable {verification : Verification} {tree : FileTree} {inputs : List (String × String)} {last : Session}

theorem compared_reads (done : verification.compared tree inputs = (.ok (), last))
    (consistent : last.classes.all ClassReport.isConsistent) (pair : String × String) (member : pair ∈ inputs) :
    Session.processed (verification.readPair tree pair) = verification.isKept tree pair ∧
      (verification.isKept tree pair = false → .noDisassembly pair.1 pair.2 ∈ last.notices) := by
  have faithful := read_pair_faithful verification tree
  obtain ⟨valid, -⟩ := Session.compare_from_start faithful inputs _ last done
  have unhalted := Session.consistent_unhalted last valid consistent (some pair.2)
  obtain ⟨reading, read, noticed⟩ :=
    Session.compare_unhalted faithful inputs _ last (Session.start_valid _) done pair member unhalted
  obtain ⟨kept, absent⟩ := read_pair_kept verification tree pair reading read
  exact ⟨kept, fun notKept => noticed _ _ (absent notKept)⟩

theorem compared_present (done : verification.compared tree inputs = (.ok (), last))
    (consistent : last.classes.all ClassReport.isConsistent) (className : String) :
    (∃ entry ∈ last.classes, entry.className = some className) ↔
      ∃ version, (version, className) ∈ inputs ∧ verification.isKept tree (version, className) := by
  rw [Session.reported_iff (read_pair_faithful verification tree) inputs _ last done]
  constructor
  · rintro ⟨⟨version, other⟩, member, brings⟩
    obtain ⟨given, same⟩ := List.mem_filter.mp member
    obtain rfl : other = className := by simpa using same
    exact ⟨version, given, (compared_reads done consistent _ given).1 ▸ brings⟩
  · rintro ⟨version, given, isKept⟩
    refine ⟨(version, className), List.mem_filter.mpr ⟨given, by simp⟩, ?_⟩
    rw [(compared_reads done consistent _ given).1, isKept]

theorem compared_versions (done : verification.compared tree inputs = (.ok (), last))
    (consistent : last.classes.all ClassReport.isConsistent) (className : String) (entry : ClassReport)
    (member : entry ∈ last.classes) (named : entry.className = some className) :
    entry.versions = (inputs.filter fun pair => pair.2 = className && verification.isKept tree pair).map (·.1) := by
  have faithful := read_pair_faithful verification tree
  obtain ⟨valid, -⟩ := Session.compare_from_start faithful inputs _ last done
  have found := Session.report_of_mem last valid entry member
  rw [named] at found
  rw [Session.compare_agreed faithful (·.1) (read_pair_version verification tree) inputs _ last done _ entry found
    (List.all_eq_true.mp consistent entry member), List.filter_filter]
  congr 1
  apply List.filter_congr
  intro pair given
  rw [(compared_reads done consistent pair given).1, Bool.and_comm]
  simp

end Consistent

structure Covers (verification : Verification) (tree : FileTree) (notices : List Notice) (classes : List String)
    (report : Report) (className : String) : Prop where
  present : (∃ entry ∈ report.classes, entry.className = some className) ↔
    ∃ version ∈ report.versions, verification.isKept tree (version, className)
  inhabited : ∀ entry ∈ report.classes, entry.className = some className → entry.versions ≠ []
  whole : ∀ entry ∈ report.classes, entry.className = some className →
    entry.versions = ((pairs report.versions classes).filter fun pair =>
      pair.2 = className && verification.isKept tree pair).map (·.1)
  noticed : ∀ version ∈ report.versions, verification.isKept tree (version, className) = false →
    .noDisassembly version className ∈ notices

theorem compared_covers (verification : Verification) (tree : FileTree) (report : Report) (classes : List String)
    (last : Session) (done : verification.compared tree (pairs report.versions classes) = (.ok (), last))
    (entries : report.classes = last.classes) (success : report.success) (className : String)
    (known : className ∈ classes) : verification.Covers tree last.notices classes report className := by
  have consistent : last.classes.all ClassReport.isConsistent := entries ▸ success
  have present := compared_present done consistent className
  have versions := compared_versions done consistent className
  simp only [mem_pairs_iff, known, and_true] at present
  rw [← entries] at present versions
  refine { present := present, inhabited := ?_, whole := versions, noticed := ?_ }
  · intro entry member named
    obtain ⟨version, listed, isKept⟩ := present.mp ⟨entry, member, named⟩
    have given := (mem_pairs_iff report.versions classes version className).mpr ⟨listed, known⟩
    rw [versions entry member named]
    exact List.ne_nil_of_mem (List.mem_map_of_mem (List.mem_filter.mpr ⟨given, by simp [isKept]⟩))
  · intro version listed notKept
    have given := (mem_pairs_iff report.versions classes version className).mpr ⟨listed, known⟩
    exact (compared_reads done consistent _ given).2 notKept

end Verification

-- A class with a kept disassembly is entered with all the versions that it is kept for. One without any
-- is passed over by each version, with a notice, and does not keep the run from succeeding.
theorem success_covers_kept (verification : Verification) (now : String) (tree : FileTree) (report : Report)
    (reported : (verification.run now tree).1 = .ok report) (success : report.success) :
    ∃ classes, ((verification.prepare .plain).run ⟨tree, [], []⟩).1 = .ok (report.versions, classes) ∧
      ∀ className ∈ classes, verification.Covers (verification.run now tree).2.tree
        (verification.run now tree).2.notices classes report className := by
  obtain ⟨versions, classes, reached, last, prepared, done, rfl⟩ := (Verification.run_ok_iff _ _ _ _).mp reported
  refine ⟨classes, by rw [prepared], fun className known => ?_⟩
  have covers := verification.compared_covers reached.tree _ classes last done rfl success className known
  have noticed : last.notices ⊆ (verification.run now tree).2.notices := by
    rw [Verification.run_eq, prepared]
    simp only [Verification.compare_classes_run]
    rw [Verification.compared] at done
    rw [done]
    exact Verification.conclude_notices now .perClass versions last _
  rw [Verification.run_tree verification now tree reached _ prepared]
  exact { covers with noticed := fun version listed notKept => noticed (covers.noticed version listed notKept) }

def partlyKeptTree : FileTree :=
  ⟨[(["r"], .folder), (["r", "1"], .folder), (["r", "2"], .folder), (["r", "3"], .folder),
    (["r", "1", "c"], .folder), (["r", "1", "c", "A.class"], .ofText ""), (["r", "1", "c", "B.class"], .ofText ""),
    (["r", "1", "bytecode_1_A.txt"], .ofText "  m();\n// class n/X"),
    (["r", "1", "bytecode_1_A_methods.txt"], .ofText "  m();"),
    (["r", "3", "bytecode_3_A.txt"], .ofText "  m();\n// class n/X"),
    (["r", "3", "bytecode_3_A_methods.txt"], .ofText "  m();")], []⟩

def partlyKeptReport : Report :=
  ⟨"noon", .perClass, ["1", "2", "3"], [⟨some "A", ["1", "3"], [], [], false⟩]⟩

set_option maxRecDepth 10000 in
theorem success_covers_kept_partly :
    (returningVerification.run "noon" partlyKeptTree).1 = .ok partlyKeptReport ∧ partlyKeptReport.success ∧
      ((returningVerification.prepare .plain).run ⟨partlyKeptTree, [], []⟩).1 = .ok (partlyKeptReport.versions, ["A", "B"]) ∧
      ∀ className ∈ ["A", "B"],
        returningVerification.Covers (returningVerification.run "noon" partlyKeptTree).2.tree
          (returningVerification.run "noon" partlyKeptTree).2.notices ["A", "B"] partlyKeptReport className := by
  have reported : (returningVerification.run "noon" partlyKeptTree).1 = .ok partlyKeptReport := by decide +kernel
  have found : ((returningVerification.prepare .plain).run ⟨partlyKeptTree, [], []⟩).1 =
      .ok (partlyKeptReport.versions, ["A", "B"]) := by decide +kernel
  have success : partlyKeptReport.success := by decide
  obtain ⟨classes, prepared, covers⟩ :=
    success_covers_kept returningVerification "noon" partlyKeptTree partlyKeptReport reported success
  obtain rfl : ["A", "B"] = classes := (Prod.mk.inj (Except.ok.inj (found.symm.trans prepared))).2
  exact ⟨reported, success, prepared, covers⟩

def bareTree : FileTree :=
  ⟨[(["r"], .folder), (["r", "1"], .folder), (["r", "1", "c"], .folder), (["r", "1", "c", "A.class"], .ofText "")], []⟩

set_option maxRecDepth 10000 in
theorem success_without_record :
    ∃ report, (returningVerification.run "noon" bareTree).1 = .ok report ∧ report.success ∧
      ((returningVerification.prepare .plain).run ⟨bareTree, [], []⟩).1 = .ok (report.versions, ["A"]) ∧
      (∀ entry ∈ report.classes, entry.className ≠ some "A") ∧
      report.render = "Versions (1): 1\n" ++ Report.line Report.successMessage :=
  ⟨⟨"noon", .perClass, ["1"], []⟩, by decide +kernel, by decide, by decide +kernel, by simp, by decide +kernel⟩

end BytecodeParity
