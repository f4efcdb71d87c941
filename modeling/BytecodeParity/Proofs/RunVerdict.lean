import BytecodeParity.Pattern.Parser
import BytecodeParity.Proofs.RunPhases

set_option autoImplicit false

namespace BytecodeParity

open ClassRecord

namespace Verification

theorem read_pair_built (verification : Verification) (tree : FileTree) (version className : String)
    (scope : BuildScope) (build : Build)
    (read : verification.readPair tree (version, className) = .ok (.built scope build)) :
    ∃ listing disassembly, scope = .listed version className ∧
      build = Disassembly.buildListed verification.config.namespacePrefix version className listing disassembly := by
  simp only [readPair, bind, Except.bind] at read
  split at read
  · cases read
  · split at read
    · cases read
    · split at read
      · cases read
      · split at read
        · cases read
        · next disassembly _ _ _ listing _ =>
            cases read
            exact ⟨listing, disassembly, rfl, rfl⟩

theorem read_pair_error (verification : Verification) (tree : FileTree) (pair : String × String)
    (error : RunError) (failed : verification.readPair tree pair = .error error) : error ≠ .inconsistent := by
  simp only [readPair, bind, Except.bind] at failed
  split at failed
  · next cause reading =>
      cases failed
      exact accessing_error _ error reading
  · split at failed
    · cases failed
    · split at failed
      · next cause reading =>
          cases failed
          exact accessing_error _ error reading
      · split at failed
        · cases failed
          simp
        · cases failed

theorem read_pair_faithful (verification : Verification) (tree : FileTree) :
    Session.Faithful (fun pair : String × String => some pair.2) (verification.readPair tree) where
  scope pair scope build read := by
    obtain ⟨listing, disassembly, rfl, _⟩ := read_pair_built verification tree pair.1 pair.2 scope build read
    rfl
  constructed pair scope build record read outcome := by
    obtain ⟨listing, disassembly, _, rfl⟩ := read_pair_built verification tree pair.1 pair.2 scope build read
    refine ⟨.listed _ _ _ _ _ record outcome, ?_⟩
    obtain ⟨_, rfl⟩ := (Disassembly.build_ok_iff _ _ _ _ _ _ _).mp outcome
    exact of_methods_class pair.1 (some pair.2) _

end Verification

namespace SingleRun

theorem read_input_built (namespacePrefix : String) (tree : FileTree) (input : SingleInput) (scope : BuildScope)
    (build : Build) (read : readInput namespacePrefix tree input = .ok (.built scope build)) :
    ∃ lines, scope = .single input.version ∧
      build = Disassembly.buildSingle namespacePrefix input.version lines := by
  simp only [readInput, bind, Except.bind] at read
  split at read
  · cases read
  · split at read
    · cases read
    · next lines _ =>
        cases read
        exact ⟨lines, rfl, rfl⟩

theorem read_input_error (namespacePrefix : String) (tree : FileTree) (input : SingleInput) (error : RunError)
    (failed : readInput namespacePrefix tree input = .error error) : error ≠ .inconsistent := by
  simp only [readInput, bind, Except.bind] at failed
  split at failed
  · next cause reading =>
      cases failed
      exact Verification.accessing_error _ error reading
  · split at failed
    · cases failed
      simp
    · cases failed

theorem read_input_faithful (namespacePrefix : String) (tree : FileTree) :
    Session.Faithful (fun _ : SingleInput => none) (readInput namespacePrefix tree) where
  scope input scope build read := by
    obtain ⟨lines, rfl, _⟩ := read_input_built namespacePrefix tree input scope build read
    rfl
  constructed input scope build record read outcome := by
    obtain ⟨lines, _, rfl⟩ := read_input_built namespacePrefix tree input scope build read
    refine ⟨.single _ _ _ record outcome, ?_⟩
    obtain ⟨collected, collects, rfl⟩ := (Disassembly.build_single_ok_iff _ _ _ _).mp outcome
    obtain ⟨_, rfl⟩ := (Disassembly.build_ok_iff _ _ _ _ _ _ _).mp collects
    exact of_methods_class input.version none _

end SingleRun

namespace Verification

section Conclusion

variable {α : Type} {className : α → Option String} {read : α → Except RunError Reading}

theorem concluded_success_iff (faithful : Session.Faithful className read) (inputs : List α) (keepGoing : Bool)
    (now : String) (mode : RunMode) (versions : List String) (progress : Progress) (report : Report)
    (reported : ((conclude now mode versions (Session.compare className read inputs (.start keepGoing)).1
      (Session.compare className read inputs (.start keepGoing)).2).run progress).1 = .ok report) :
    report.versions = versions ∧
      (report.success ↔ ∀ name, Session.Agree read (inputs.filter fun input => className input = name)) := by
  have valid := Session.compare_valid faithful inputs (.start keepGoing) (Session.start_valid keepGoing)
  rw [conclude_result _ _ _ _ _ valid] at reported
  cases compared : Session.compare className read inputs (.start keepGoing) with
  | mk result last =>
      rw [compared] at reported
      cases result with
      | error error => cases reported
      | ok done =>
          cases reported
          exact ⟨rfl, Session.compare_consistent_iff faithful inputs keepGoing last compared⟩

theorem concluded_not_inconsistent (faithful : Session.Faithful className read) (inputs : List α) (keepGoing : Bool)
    (reads : ∀ input error, read input = .error error → error ≠ .inconsistent) (now : String) (mode : RunMode)
    (versions : List String) (progress : Progress) :
    ((conclude now mode versions (Session.compare className read inputs (.start keepGoing)).1
      (Session.compare className read inputs (.start keepGoing)).2).run progress).1 ≠ .error .inconsistent := by
  have valid := Session.compare_valid faithful inputs (.start keepGoing) (Session.start_valid keepGoing)
  rw [conclude_result _ _ _ _ _ valid]
  cases compared : (Session.compare className read inputs (.start keepGoing)).1 with
  | ok done => simp [Except.map]
  | error error =>
      obtain ⟨input, _, reading⟩ := Session.compare_error inputs _ error compared
      simpa [Except.map] using reads input error reading

end Conclusion

theorem compare_classes_run (verification : Verification) (now : String) (versions classes : List String)
    (progress : Progress) :
    (verification.compareClasses now versions classes).run progress =
      (conclude now .perClass versions
        (Session.compare (fun pair => some pair.2) (verification.readPair progress.tree) (pairs versions classes)
          (.start verification.options.keepGoing)).1
        (Session.compare (fun pair => some pair.2) (verification.readPair progress.tree) (pairs versions classes)
          (.start verification.options.keepGoing)).2).run (progress.noting [.comparing]) := by
  simp only [compareClasses, Job.run_bind, Job.run_note, Job.run_ask, Progress.noting_tree]

theorem compare_classes_error (verification : Verification) (now : String) (versions classes : List String)
    (progress : Progress) (error : RunError)
    (failed : ((verification.compareClasses now versions classes).run progress).1 = .error error) :
    ∃ pair ∈ pairs versions classes, verification.readPair progress.tree pair = .error error := by
  have valid := Session.compare_valid (read_pair_faithful verification progress.tree) (pairs versions classes)
    (.start verification.options.keepGoing) (Session.start_valid _)
  rw [compare_classes_run, conclude_result _ _ _ _ _ valid] at failed
  cases compared : (Session.compare (fun pair => some pair.2) (verification.readPair progress.tree)
      (pairs versions classes) (.start verification.options.keepGoing)).1 with
  | ok done =>
      rw [compared] at failed
      cases failed
  | error cause =>
      rw [compared] at failed
      cases failed
      exact Session.compare_error _ _ _ compared

theorem compare_classes_tree (verification : Verification) (now : String) (versions classes : List String)
    (progress : Progress) :
    ((verification.compareClasses now versions classes).run progress).2.tree = progress.tree := by
  rw [compare_classes_run, conclude_progress, Progress.noting_tree, Progress.noting_tree]

theorem agree_pairs_iff (verification : Verification) (tree : FileTree) (versions classes : List String) :
    (∀ name : Option String, Session.Agree (verification.readPair tree)
      ((pairs versions classes).filter fun pair => some pair.2 = name)) ↔
    ∀ className ∈ classes,
      Session.Agree (verification.readPair tree) (versions.map fun version => (version, className)) := by
  have within : ∀ className pair, pair ∈ (pairs versions classes).filter (fun pair => some pair.2 = some className) ↔
      className ∈ classes ∧ pair ∈ versions.map fun version => (version, className) := by
    intro className pair
    simp only [pairs, List.mem_filter, List.mem_flatMap, List.mem_map, Option.some.injEq, decide_eq_true_eq]
    constructor
    · rintro ⟨⟨version, known, other, member, rfl⟩, rfl⟩
      exact ⟨member, version, known, rfl⟩
    · rintro ⟨member, version, known, rfl⟩
      exact ⟨⟨version, known, className, member, rfl⟩, rfl⟩
  constructor
  · intro agree className member
    exact Session.agree_of_subset _ _ _ (fun pair inClass => (within className pair).mpr ⟨member, inClass⟩)
      (agree (some className))
  · intro agree name
    cases name with
    | none => simp [Session.Agree]
    | some className =>
        by_cases member : className ∈ classes
        · exact Session.agree_of_subset _ _ _ (fun pair inClass => ((within className pair).mp inClass).2)
            (agree className member)
        · have nothing : (pairs versions classes).filter (fun pair => some pair.2 = some className) = [] :=
            List.eq_nil_iff_forall_not_mem.mpr fun pair inClass => member ((within className pair).mp inClass).1
          rw [nothing]
          simp [Session.Agree]

theorem run_listed_eq (verification : Verification) (listings : Listings) (now : String) (tree : FileTree) :
    verification.runListed listings now tree =
      match (verification.prepare listings).run ⟨tree, [], []⟩ with
      | (.ok found, reached) => (verification.compareClasses now found.1 found.2).run reached
      | (.error error, reached) => (.error error, reached) := by
  rw [runListed, Job.run_bind]
  cases (verification.prepare listings).run ⟨tree, [], []⟩ with
  | mk result reached => cases result <;> rfl

theorem run_eq (verification : Verification) (now : String) (tree : FileTree) :
    verification.run now tree =
      match (verification.prepare .plain).run ⟨tree, [], []⟩ with
      | (.ok found, reached) => (verification.compareClasses now found.1 found.2).run reached
      | (.error error, reached) => (.error error, reached) :=
  run_listed_eq verification .plain now tree

theorem run_not_inconsistent (verification : Verification) (now : String) (tree : FileTree) :
    (verification.run now tree).1 ≠ .error .inconsistent := by
  rw [run_eq]
  cases prepared : (verification.prepare .plain).run ⟨tree, [], []⟩ with
  | mk result reached =>
      cases result with
      | error error =>
          have allowed := prepare_fails verification .plain ⟨tree, [], []⟩ error (by rw [prepared])
          simpa using allowed
      | ok found =>
          simp only [compare_classes_run]
          exact concluded_not_inconsistent (read_pair_faithful verification reached.tree) _ _
            (read_pair_error verification reached.tree) now .perClass found.1 _

theorem run_success_iff (verification : Verification) (now : String) (tree : FileTree) (report : Report)
    (reported : (verification.run now tree).1 = .ok report) :
    ∃ classes, ((verification.prepare .plain).run ⟨tree, [], []⟩).1 = .ok (report.versions, classes) ∧
      (report.success ↔ ∀ className ∈ classes,
        Session.Agree (verification.readPair (verification.run now tree).2.tree)
          (report.versions.map fun version => (version, className))) := by
  rw [run_eq] at reported ⊢
  cases prepared : (verification.prepare .plain).run ⟨tree, [], []⟩ with
  | mk result reached =>
      rw [prepared] at reported
      cases result with
      | error error => cases reported
      | ok found =>
          obtain ⟨versions, classes⟩ := found
          simp only [compare_classes_run] at reported
          obtain ⟨same, verdict⟩ := concluded_success_iff (read_pair_faithful verification reached.tree)
            (pairs versions classes) verification.options.keepGoing now .perClass versions _ report reported
          subst same
          refine ⟨classes, rfl, ?_⟩
          simp only [verdict, agree_pairs_iff, compare_classes_tree]

end Verification

namespace SingleRun

theorem run_eq (namespacePrefix : String) (keepGoing : Bool) (inputs : List SingleInput) (now : String)
    (tree : FileTree) (given : inputs ≠ []) :
    run namespacePrefix keepGoing inputs now tree =
      (Verification.conclude now .single (inputs.map (·.version))
        (Session.compare (fun _ => none) (readInput namespacePrefix tree) inputs (.start keepGoing)).1
        (Session.compare (fun _ => none) (readInput namespacePrefix tree) inputs (.start keepGoing)).2).run
          ⟨tree, [], []⟩ := by
  have nonempty : ¬ inputs.isEmpty := by simpa using given
  rw [run, job, if_neg nonempty, Job.run_bind, Job.run_ask]

theorem run_not_inconsistent (namespacePrefix : String) (keepGoing : Bool) (inputs : List SingleInput) (now : String)
    (tree : FileTree) : (run namespacePrefix keepGoing inputs now tree).1 ≠ .error .inconsistent := by
  by_cases given : inputs = []
  · subst given
    intro failed
    cases failed
  · rw [run_eq _ _ _ _ _ given]
    exact Verification.concluded_not_inconsistent (read_input_faithful namespacePrefix tree) inputs keepGoing
      (read_input_error namespacePrefix tree) now .single _ _

theorem run_success_iff (namespacePrefix : String) (keepGoing : Bool) (inputs : List SingleInput) (now : String)
    (tree : FileTree) (report : Report) (reported : (run namespacePrefix keepGoing inputs now tree).1 = .ok report) :
    report.success ↔ Session.Agree (readInput namespacePrefix tree) inputs := by
  by_cases given : inputs = []
  · subst given
    cases reported
  · rw [run_eq _ _ _ _ _ given] at reported
    obtain ⟨_, verdict⟩ := Verification.concluded_success_iff (read_input_faithful namespacePrefix tree) inputs
      keepGoing now .single _ _ report reported
    rw [verdict]
    have unnamed : inputs.filter (fun _ => (none : Option String) = none) = inputs := by simp
    constructor
    · intro agree
      exact unnamed ▸ agree none
    · intro agree name
      exact Session.agree_of_subset _ _ _ (fun input member => (List.mem_filter.mp member).1) agree

end SingleRun

-- The final check repeats what the comparison has found already, so it never fails: not after any
-- sequence of records and failed builds, and so not in any run.
theorem final_check_never_fails :
    (∀ (verification : Verification) (now : String) (tree : FileTree),
      (verification.run now tree).1 ≠ .error .inconsistent) ∧
    (∀ (namespacePrefix : String) (keepGoing : Bool) (inputs : List SingleInput) (now : String) (tree : FileTree),
      (SingleRun.run namespacePrefix keepGoing inputs now tree).1 ≠ .error .inconsistent) ∧
    ∀ (keepGoing : Bool) (events : List Session.Event), (∀ record, .offered record ∈ events → Constructed record) →
      Sanity.check ((Session.start keepGoing).applyAll events).consistentRecords ∧
        ∀ now mode versions, (((Session.start keepGoing).applyAll events).finish now mode versions).1 =
          some ⟨now, mode, versions, ((Session.start keepGoing).applyAll events).classes⟩ := by
  refine ⟨Verification.run_not_inconsistent, SingleRun.run_not_inconsistent, ?_⟩
  intro keepGoing events constructed
  have valid := Session.apply_all_valid (.start keepGoing) (Session.start_valid keepGoing) events
    fun record member => constructed_well_formed record (constructed record member)
  exact ⟨Session.consistent_records_pass _ valid, Session.finish_reports _ valid⟩

def mixedEvents : List Session.Event :=
  [.offered (.ofMethods "1" (some "A") [("m()", ["X"])]), .offered (.ofMethods "1" (some "C") [("n()", ["Z"])]),
    .failed (some "B") ⟨"1", some "B", "m()"⟩, .offered (.ofMethods "2" (some "A") [("m()", ["Y"])]),
    .offered (.ofMethods "2" (some "B") [("m()", [])]), .offered (.ofMethods "3" (some "A") [("m()", ["X"])]),
    .offered (.ofMethods "2" (some "C") [("n()", ["Z"])])]

theorem final_check_never_fails_mixed_events :
    (∀ record, .offered record ∈ mixedEvents → Constructed record) ∧
      ((Session.start true).applyAll mixedEvents).consistentRecords.map (·.version) = ["1", "2"] ∧
      Sanity.check ((Session.start true).applyAll mixedEvents).consistentRecords := by
  have constructed : ∀ record, .offered record ∈ mixedEvents → Constructed record := by
    intro record member
    simp only [mixedEvents, List.mem_cons, List.not_mem_nil, or_false, reduceCtorEq, false_or,
      Session.Event.offered.injEq] at member
    rcases member with rfl | rfl | rfl | rfl | rfl | rfl <;> exact .given _ _ _
  exact ⟨constructed, by decide, (final_check_never_fails.2.2 true mixedEvents constructed).1⟩

-- The records that are compared are read from the tree as the run leaves it. Versions that a halted
-- class does not reach count as well, and so do versions that are not next to each other.
theorem success_iff_all_agree :
    (∀ (verification : Verification) (now : String) (tree : FileTree) (report : Report),
      (verification.run now tree).1 = .ok report →
        ∃ classes, ((verification.prepare .plain).run ⟨tree, [], []⟩).1 = .ok (report.versions, classes) ∧
          (report.success ↔ ∀ className ∈ classes,
            Session.Agree (verification.readPair (verification.run now tree).2.tree)
              (report.versions.map fun version => (version, className)))) ∧
    ∀ (namespacePrefix : String) (keepGoing : Bool) (inputs : List SingleInput) (now : String) (tree : FileTree)
      (report : Report), (SingleRun.run namespacePrefix keepGoing inputs now tree).1 = .ok report →
        (report.success ↔ Session.Agree (SingleRun.readInput namespacePrefix tree) inputs) :=
  ⟨Verification.run_success_iff, SingleRun.run_success_iff⟩

def listedMethod : String := "class A \x7b\n  m();\n\x7d\n"

def methodCalling (symbol : String) : String :=
  "class A \x7b\n  m();\n    Code:\n       0: call #1 // Method " ++ symbol ++ "\n\x7d\n"

def returningTree : FileTree :=
  ⟨[(["r"], .folder), (["r", "1"], .folder), (["r", "2"], .folder), (["r", "3"], .folder),
    (["r", "1", "c"], .folder), (["r", "1", "c", "A.class"], .ofText ""),
    (["r", "1", "bytecode_1_A.txt"], .ofText (methodCalling "n/X")),
    (["r", "1", "bytecode_1_A_methods.txt"], .ofText listedMethod),
    (["r", "2", "bytecode_2_A.txt"], .ofText (methodCalling "n/Y")),
    (["r", "2", "bytecode_2_A_methods.txt"], .ofText listedMethod),
    (["r", "3", "bytecode_3_A.txt"], .ofText (methodCalling "n/X")),
    (["r", "3", "bytecode_3_A_methods.txt"], .ofText listedMethod)], []⟩

def returningVerification : Verification where
  root := "/r"
  config :=
    { namespacePrefix := "n/", classesDir := "c", versionPattern := ".", archivePattern := "x", cleanDirs := [],
      javap := "", tar := "" }
  tools := ⟨fun _ _ tree => (.ok (), tree), fun _ _ tree => (.ok ⟨"", ""⟩, tree), "tar", Pattern.library⟩
  options := ⟨true, true, false⟩

def succeeds : Except RunError Report → Option Bool
  | .ok report => some report.success
  | .error _ => none

set_option maxRecDepth 10000 in
theorem success_iff_all_agree_returning_version :
    (∃ report classes, (returningVerification.run "noon" returningTree).1 = .ok report ∧
      ((returningVerification.prepare .plain).run ⟨returningTree, [], []⟩).1 = .ok (report.versions, classes) ∧
      report.success = false ∧ ∃ className ∈ classes,
        ¬ Session.Agree (returningVerification.readPair (returningVerification.run "noon" returningTree).2.tree)
          (report.versions.map fun version => (version, className))) ∧
    Session.Agree (SingleRun.readInput "n/" returningTree)
      [⟨"1", "/r/1/bytecode_1_A.txt"⟩, ⟨"3", "/r/3/bytecode_3_A.txt"⟩] := by
  have differs : succeeds (returningVerification.run "noon" returningTree).1 = some false := by decide +kernel
  have equal : succeeds (SingleRun.run "n/" true
      [⟨"1", "/r/1/bytecode_1_A.txt"⟩, ⟨"3", "/r/3/bytecode_3_A.txt"⟩] "noon" returningTree).1 = some true := by
    decide +kernel
  constructor
  · cases ran : (returningVerification.run "noon" returningTree).1 with
    | error error => rw [ran] at differs; cases differs
    | ok report =>
        have failed : report.success = false := by simpa [ran, succeeds] using differs
        obtain ⟨classes, prepared, verdict⟩ :=
          success_iff_all_agree.1 returningVerification "noon" returningTree report ran
        refine ⟨report, classes, rfl, prepared, failed, ?_⟩
        rw [failed] at verdict
        simpa using verdict
  · cases ran : (SingleRun.run "n/" true
        [⟨"1", "/r/1/bytecode_1_A.txt"⟩, ⟨"3", "/r/3/bytecode_3_A.txt"⟩] "noon" returningTree).1 with
    | error error => rw [ran] at equal; cases equal
    | ok report =>
        have succeeded : report.success = true := by simpa [ran, succeeds] using equal
        exact (success_iff_all_agree.2 "n/" true _ "noon" returningTree report ran).mp succeeded

end BytecodeParity
