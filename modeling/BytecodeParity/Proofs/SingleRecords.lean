import Mathlib.Data.List.Sort
import BytecodeParity.Proofs.ByteOrder
import BytecodeParity.Proofs.InputStyles
import BytecodeParity.Proofs.KeepGoingReport

set_option autoImplicit false

namespace BytecodeParity

theorem ClassRecord.sort_methods_ascending (record : ClassRecord) : record.sortMethods.methods.Pairwise (· ≤ ·) := by
  have transitive : ∀ a b c : String, decide (a ≤ b) → decide (b ≤ c) → decide (a ≤ c) := by
    intro a b c before after
    simpa using le_trans (of_decide_eq_true before) (of_decide_eq_true after)
  have total : ∀ a b : String, decide (a ≤ b) || decide (b ≤ a) := by
    intro a b
    simpa using le_total a b
  simpa [sortMethods] using List.pairwise_mergeSort transitive total record.methods

theorem ClassRecord.sort_methods_eq (record : ClassRecord) (sorted : List String) (same : record.methods.Perm sorted)
    (ascending : sorted.Pairwise (· ≤ ·)) : record.sortMethods.methods = sorted :=
  (record.sort_methods_perm.trans same).eq_of_pairwise' record.sort_methods_ascending ascending

theorem ClassRecord.sort_methods_increasing (record : ClassRecord) (distinct : record.methods.Nodup) :
    record.sortMethods.methods.Pairwise (· < ·) :=
  (record.sort_methods_ascending.and (record.sort_methods_perm.nodup_iff.mpr distinct)).imp fun ordered =>
    lt_of_le_of_ne ordered.1 ordered.2

theorem ClassRecord.sort_methods_strict (record : ClassRecord) (distinct : record.methods.Nodup) :
    record.sortMethods.methods.Pairwise fun a b => Text.bytes a < Text.bytes b :=
  (record.sort_methods_increasing distinct).imp (Text.bytes_lt_iff _ _).mpr

namespace ReportEntry

theorem reached_sublist (keepGoing : Bool) (entries : List ReportEntry) :
    (reached keepGoing entries).Sublist entries := by
  induction entries with
  | nil => exact List.nil_sublist _
  | cons entry entries ih =>
      rw [reached]
      split
      · exact (List.nil_sublist entries).cons_cons entry
      · exact ih.cons_cons entry

end ReportEntry

namespace Session

variable {ε α : Type} {className : α → Option String} {read : α → Except ε Reading}

theorem compare_failures (faithful : Faithful className read) (inputs : List α) (keepGoing : Bool) (last : Session)
    (done : compare className read inputs (start keepGoing) = (.ok (), last)) (report : ClassReport)
    (member : report ∈ last.classes) :
    report.buildFailures.Sublist
      (((inputs.filter fun input => className input = report.className).filterMap
        fun input => failedBuild? (read input)).map .ofMissing) := by
  obtain ⟨valid, -⟩ := compare_from_start faithful inputs keepGoing last done
  have kept := report_of_mem last valid report member
  rw [compare_report faithful inputs keepGoing last done] at kept
  have entered := Track.follow_report_eq keepGoing report.className _ (class_events_own inputs report.className) report
    kept
  have failures := ClassReport.enter_all_failures keepGoing (.empty report.className)
    (ReportEntry.reached keepGoing (ledger [] (classEvents read inputs report.className)))
  rw [← entered] at failures
  have all : (ledger [] (classEvents read inputs report.className)).filterMap ReportEntry.failure? =
      ((inputs.filter fun input => className input = report.className).filterMap
        fun input => failedBuild? (read input)).map .ofMissing := by
    rw [ledger_failures, class_events_of_own faithful, events_missing]
  rw [failures, ← all]
  exact (ReportEntry.reached_sublist keepGoing _).filterMap ReportEntry.failure?

end Session

namespace Disassembly

theorem single_methods_iff (namespacePrefix version : String) (disassembly : List String) (method : String) :
    method ∈ (builtRecord Text.startsInked namespacePrefix version none
        (declaredSignatures (disassembly.map stripIndent)) (disassembly.map stripIndent)).sortMethods.methods ↔
      ∃ line ∈ disassembly, isDeclaration (stripIndent line) ∧ Text.trim (stripIndent line) = method := by
  rw [(ClassRecord.sort_methods_perm _).mem_iff, built_methods, List.mem_eraseDups]
  simp [declaredSignatures, and_assoc]

end Disassembly

namespace SingleRun

theorem read_never_fails (namespacePrefix : String) (tree : FileTree) (input : SingleInput) :
    Session.failedBuild? (readInput namespacePrefix tree input) = none := by
  cases read : readInput namespacePrefix tree input with
  | error error => rfl
  | ok reading =>
      cases reading with
      | absent version className => rfl
      | built scope build =>
          obtain ⟨lines, rfl, rfl⟩ := read_input_built namespacePrefix tree input scope build read
          rw [Session.failedBuild?, Disassembly.single_built]

theorem run_failures (namespacePrefix : String) (keepGoing : Bool) (inputs : List SingleInput) (now : String)
    (tree : FileTree) (report : Report) (reported : (run namespacePrefix keepGoing inputs now tree).1 = .ok report)
    (entry : ClassReport) (member : entry ∈ report.classes) : entry.buildFailures = [] := by
  obtain ⟨_, last, done, rfl⟩ := (run_ok_iff _ _ _ _ _ _).mp reported
  have failed := Session.compare_failures (read_input_faithful namespacePrefix tree) inputs keepGoing last done entry
    member
  rw [List.filterMap_eq_nil_iff.mpr fun input _ => read_never_fails namespacePrefix tree input] at failed
  exact List.sublist_nil.mp failed

end SingleRun

-- Only the methods are sorted, after their bodies were read in the order of the lines. The order is
-- strict, so no method comes twice.
theorem single_records_never_fail :
    (∀ (namespacePrefix version : String) (disassembly : List String), ∃ record,
      (Disassembly.buildSingle namespacePrefix version disassembly).outcome = .ok record ∧
      (∀ method, method ∈ record.methods ↔ ∃ line ∈ disassembly,
        Disassembly.isDeclaration (Disassembly.stripIndent line) ∧
          Text.trim (Disassembly.stripIndent line) = method) ∧
      record.methods.Pairwise fun a b => Text.bytes a < Text.bytes b) ∧
    ∀ (namespacePrefix : String) (keepGoing : Bool) (inputs : List SingleInput) (now : String) (tree : FileTree)
      (report : Report), (SingleRun.run namespacePrefix keepGoing inputs now tree).1 = .ok report →
        ∀ entry ∈ report.classes, entry.buildFailures = [] := by
  refine ⟨fun namespacePrefix version disassembly => ?_, SingleRun.run_failures⟩
  exact ⟨_, Disassembly.single_built namespacePrefix version disassembly,
    Disassembly.single_methods_iff namespacePrefix version disassembly,
    ClassRecord.sort_methods_strict _ (ClassRecord.of_methods_well_formed version none _).1⟩

def unorderedLines : List String :=
  ["  public final void m();", "   0: call // Method n/X.f", "xxpublic final int k();", "", "  public final void m();x",
    "public final int j();", "  public final void m();\u2003"]

def changingTree : FileTree :=
  ⟨[(["a"], .ofText "  public final void m();\n   // class n/X"), (["b"], .ofText "  public final void m();\n")], []⟩

def changingInputs : List SingleInput :=
  [⟨"1", "/a"⟩, ⟨"2", "/b"⟩, ⟨"3", "/b"⟩]

set_option maxRecDepth 10000 in
theorem changing_outline :
    (SingleRun.run "n/" true changingInputs "noon" changingTree).1.toOption.map outline =
      some [(["1", "3"], ["2"], [], false)] := by decide +kernel

theorem single_records_never_fail_unordered :
    (∃ record, (Disassembly.buildSingle "n/" "1" unorderedLines).outcome = .ok record ∧
      record.methods = ["public final int k();", "public final void m();", "public final void m();x"] ∧
      record.methods.Pairwise fun a b => Text.bytes a < Text.bytes b) ∧
    ∃ report, (SingleRun.run "n/" true changingInputs "noon" changingTree).1 = .ok report ∧
      outline report = [(["1", "3"], ["2"], [], false)] ∧ ∀ entry ∈ report.classes, entry.buildFailures = [] := by
  obtain ⟨built, unfailed⟩ := single_records_never_fail
  constructor
  · obtain ⟨record, outcome, _, ascending⟩ := built "n/" "1" unorderedLines
    refine ⟨record, outcome, ?_, ascending⟩
    have same := Except.ok.inj (outcome.symm.trans (Disassembly.single_built "n/" "1" unorderedLines))
    rw [same]
    exact ClassRecord.sort_methods_eq _ _ (by decide +kernel) (by decide +kernel)
  · obtain ⟨report, ran, outlined⟩ := outlined_report _ _ changing_outline
    exact ⟨report, ran, outlined, unfailed "n/" true _ "noon" changingTree report ran⟩

end BytecodeParity
