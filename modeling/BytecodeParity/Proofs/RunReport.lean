import BytecodeParity.Proofs.RunVerdict

set_option autoImplicit false

namespace BytecodeParity

namespace Verification

section Conclusion

variable {α : Type} {className : α → Option String} {read : α → Except RunError Reading}

theorem concluded_ok_iff (faithful : Session.Faithful className read) (inputs : List α) (keepGoing : Bool)
    (now : String) (mode : RunMode) (versions : List String) (progress : Progress) (report : Report) :
    ((conclude now mode versions (Session.compare className read inputs (.start keepGoing)).1
        (Session.compare className read inputs (.start keepGoing)).2).run progress).1 = .ok report ↔
      ∃ last, Session.compare className read inputs (.start keepGoing) = (.ok (), last) ∧
        report = ⟨now, mode, versions, last.classes⟩ := by
  have valid := Session.compare_valid faithful inputs (.start keepGoing) (Session.start_valid keepGoing)
  rw [conclude_result _ _ _ _ _ valid]
  cases Session.compare className read inputs (.start keepGoing) with
  | mk result last =>
      cases result with
      | error error => simp [Except.map]
      | ok done => simp [Except.map, eq_comm]

end Conclusion

def compared (verification : Verification) (tree : FileTree) (inputs : List (String × String)) :
    Except RunError Unit × Session :=
  Session.compare (fun pair => some pair.2) (verification.readPair tree) inputs
    (.start verification.options.keepGoing)

theorem run_ok_iff (verification : Verification) (now : String) (tree : FileTree) (report : Report) :
    (verification.run now tree).1 = .ok report ↔
      ∃ versions classes reached last,
        (verification.prepare .plain).run ⟨tree, [], []⟩ = (.ok (versions, classes), reached) ∧
          verification.compared reached.tree (pairs versions classes) = (.ok (), last) ∧
          report = ⟨now, .perClass, versions, last.classes⟩ := by
  rw [run_eq]
  cases prepared : (verification.prepare .plain).run ⟨tree, [], []⟩ with
  | mk result reached =>
      cases result with
      | error error =>
          constructor
          · intro reported
            cases reported
          · rintro ⟨_, _, _, _, same, _⟩
            cases same
      | ok found =>
          obtain ⟨versions, classes⟩ := found
          simp only [compare_classes_run, concluded_ok_iff (read_pair_faithful verification reached.tree), compared]
          constructor
          · rintro ⟨last, done, same⟩
            exact ⟨versions, classes, reached, last, rfl, done, same⟩
          · rintro ⟨_, _, _, last, same, done, reported⟩
            cases same
            exact ⟨last, done, reported⟩

theorem run_tree (verification : Verification) (now : String) (tree : FileTree) (reached : Progress)
    (found : List String × List String)
    (prepared : (verification.prepare .plain).run ⟨tree, [], []⟩ = (.ok found, reached)) :
    (verification.run now tree).2.tree = reached.tree := by
  rw [run_eq, prepared]
  exact compare_classes_tree verification now found.1 found.2 reached

theorem run_compared (verification : Verification) (now : String) (tree : FileTree) (report : Report)
    (reported : (verification.run now tree).1 = .ok report) :
    ∃ classes last, ((verification.prepare .plain).run ⟨tree, [], []⟩).1 = .ok (report.versions, classes) ∧
      verification.compared (verification.run now tree).2.tree (pairs report.versions classes) = (.ok (), last) ∧
      report.classes = last.classes := by
  obtain ⟨versions, classes, reached, last, prepared, done, rfl⟩ := (run_ok_iff _ _ _ _).mp reported
  refine ⟨classes, last, by rw [prepared], ?_, rfl⟩
  rw [run_tree verification now tree reached _ prepared]
  exact done

def keeping (verification : Verification) (keepGoing : Bool) : Verification :=
  { verification with options := { verification.options with keepGoing := keepGoing } }

section Preparation

variable (verification : Verification) (keepGoing : Bool) (namespacePrefix : String)

def comparing : Verification :=
  { verification with
    config := { verification.config with namespacePrefix := namespacePrefix }
    options := { verification.options with keepGoing := keepGoing } }

theorem extract_versions_comparing (listings : Listings) (pattern : Matcher) (versions : List String) :
    extractVersions (verification.comparing keepGoing namespacePrefix) listings pattern versions =
      extractVersions verification listings pattern versions := by
  induction versions with
  | nil => rfl
  | cons version versions ih =>
      rw [extractVersions, extractVersions, ih]
      rfl

theorem disassemble_pairs_comparing (pairs : List (String × String)) :
    disassemblePairs (verification.comparing keepGoing namespacePrefix) pairs =
      disassemblePairs verification pairs := by
  induction pairs with
  | nil => rfl
  | cons pair pairs ih =>
      rw [disassemblePairs, disassemblePairs, ih]
      rfl

theorem prepare_comparing (listings : Listings) :
    (verification.comparing keepGoing namespacePrefix).prepare listings = verification.prepare listings := by
  unfold prepare
  simp only [extract_versions_comparing, disassemble_pairs_comparing]
  rfl

theorem prepare_keeping : (verification.keeping keepGoing).prepare .plain = verification.prepare .plain :=
  prepare_comparing verification keepGoing verification.config.namespacePrefix .plain

end Preparation

theorem mem_pairs_iff (versions classes : List String) (version className : String) :
    (version, className) ∈ pairs versions classes ↔ version ∈ versions ∧ className ∈ classes := by
  simp [pairs]

theorem pairs_of_class (versions classes : List String) (className : String) (once : classes.count className = 1) :
    (pairs versions classes).filter (fun pair => pair.2 = className) =
      versions.map fun version => (version, className) := by
  have single : classes.filter (fun other => other = className) = [className] := by
    rw [List.filter_eq, once]
    rfl
  induction versions with
  | nil => rfl
  | cons version versions ih =>
      rw [pairs, List.flatMap_cons, List.filter_append, List.filter_map]
      have here : classes.filter ((fun pair => decide (pair.2 = className)) ∘ fun other => (version, other)) =
          [className] := single
      rw [here]
      exact congrArg _ ih

end Verification

namespace SingleRun

theorem run_ok_iff (namespacePrefix : String) (keepGoing : Bool) (inputs : List SingleInput) (now : String)
    (tree : FileTree) (report : Report) :
    (run namespacePrefix keepGoing inputs now tree).1 = .ok report ↔
      inputs ≠ [] ∧ ∃ last,
        Session.compare (fun _ => none) (readInput namespacePrefix tree) inputs (.start keepGoing) = (.ok (), last) ∧
          report = ⟨now, .single, inputs.map (·.version), last.classes⟩ := by
  by_cases given : inputs = []
  · subst given
    constructor
    · intro reported
      cases reported
    · intro nonempty
      exact absurd rfl nonempty.1
  · rw [run_eq _ _ _ _ _ given, Verification.concluded_ok_iff (read_input_faithful namespacePrefix tree)]
    simp only [ne_eq, given, not_false_eq_true, true_and]

end SingleRun

def unevenTree : FileTree :=
  ⟨[(["r"], .folder), (["r", "1"], .folder), (["r", "2"], .folder), (["r", "3"], .folder), (["r", "4"], .folder),
    (["r", "5"], .folder), (["r", "1", "c"], .folder), (["r", "1", "c", "A.class"], .ofText ""),
    (["r", "1", "bytecode_1_A.txt"], .ofText "  m();\n// class n/X"),
    (["r", "1", "bytecode_1_A_methods.txt"], .ofText "  m();"),
    (["r", "3", "bytecode_3_A.txt"], .ofText "  m();"), (["r", "3", "bytecode_3_A_methods.txt"], .ofText "  k();"),
    (["r", "4", "bytecode_4_A.txt"], .ofText "  m();"), (["r", "4", "bytecode_4_A_methods.txt"], .ofText "  m();"),
    (["r", "5", "bytecode_5_A.txt"], .ofText "  m();"), (["r", "5", "bytecode_5_A_methods.txt"], .ofText "  m();")],
    []⟩

def outline (report : Report) : List (List String × List String × List String × Bool) :=
  report.classes.map fun entry =>
    (entry.versions, entry.divergences.map (·.version), entry.buildFailures.map (·.version), entry.halted)

theorem outlined_report (result : Except RunError Report)
    (lists : List (List String × List String × List String × Bool))
    (outlined : result.toOption.map outline = some lists) :
    ∃ report, result = .ok report ∧ outline report = lists := by
  cases result with
  | error error => cases outlined
  | ok report => exact ⟨report, rfl, Option.some.inj outlined⟩

set_option maxRecDepth 10000 in
theorem uneven_outline :
    ((returningVerification.keeping true).run "noon" unevenTree).1.toOption.map outline =
      some [(["1", "5"], ["4"], ["3"], false)] := by decide +kernel

end BytecodeParity
