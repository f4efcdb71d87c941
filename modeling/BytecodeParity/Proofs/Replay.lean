import BytecodeParity.Proofs.ArtifactFiles
import BytecodeParity.Proofs.RunReport

set_option autoImplicit false

namespace BytecodeParity

namespace Verification

-- What a run that extracts nothing finds: the versions, and the classes of the first of them.
def Finds (verification : Verification) (tree : FileTree) (versions classes : List String) : Prop :=
  ∃ patterns first, verification.patterns = .ok patterns ∧ versions.head? = some first ∧
    Discovery.versions tree verification.root patterns.version = .ok versions ∧
    Discovery.classes tree (Layout.classesDir verification.root first verification.config.classesDir) = .ok classes ∧
    classes ≠ []

theorem prepare_run_iff (verification : Verification) (keepsExtracted : verification.options.skipExtract = true)
    (versions classes : List String) (progress reached : Progress) :
    (verification.prepare .plain).run progress = (.ok (versions, classes), reached) ↔
      verification.Finds progress.tree versions classes ∧
        (verification.disassembling (pairs versions classes)).run
          ((progress.noting [.versionsFound versions]).noting [.classesFound classes]) = (.ok (), reached) := by
  rw [prepare_phases]
  simp only [Job.bind_ok_iff, Job.ask_ok_iff, Job.note_ok_iff, accessing_ok_iff, map_error_ok_iff]
  constructor
  · rintro ⟨patterns, _, ⟨valid, rfl⟩, found, _, ⟨listed, rfl⟩, _, _, rfl, rest⟩
    cases found with
    | nil => exact absurd rest (Job.throw_not_ok _ _ _ _)
    | cons first others =>
        simp only [preparing, extracting, keepsExtracted, if_true, pure_bind, Job.bind_ok_iff, Job.ask_ok_iff,
          Job.note_ok_iff, accessing_ok_iff] at rest
        obtain ⟨known, _, ⟨inFolder, rfl⟩, _, _, rfl, rest⟩ := rest
        split at rest
        · exact absurd rest (Job.throw_not_ok _ _ _ _)
        · next nonempty =>
            simp only [Job.bind_ok_iff, Job.pure_ok_iff] at rest
            obtain ⟨_, _, done, same, rfl⟩ := rest
            cases same
            exact ⟨⟨patterns, first, valid, rfl, listed, inFolder, by simpa using nonempty⟩, done⟩
  · rintro ⟨⟨patterns, first, valid, leads, listed, inFolder, nonempty⟩, done⟩
    cases versions with
    | nil => cases leads
    | cons head others =>
        cases leads
        refine ⟨patterns, progress, ⟨valid, rfl⟩, first :: others, progress, ⟨listed, rfl⟩, (), _, rfl, ?_⟩
        simp only [preparing, extracting, keepsExtracted, if_true, pure_bind, Job.bind_ok_iff, Job.ask_ok_iff,
          Job.note_ok_iff, accessing_ok_iff]
        refine ⟨classes, _, ⟨inFolder, rfl⟩, (), _, rfl, ?_⟩
        rw [if_neg (by simpa using nonempty)]
        simp only [Job.bind_ok_iff, Job.pure_ok_iff]
        exact ⟨(), reached, done, trivial, rfl⟩

theorem disassembling_texts (verification : Verification) (reads : ReadsOnly verification.tools) (tree : FileTree)
    (pairs : List (String × String)) : Job.Maintains (SameButTexts tree) (disassembling verification pairs) :=
  Job.maintains_ite _ _ _ (Job.maintains_pure ()) (disassemble_pairs_texts verification reads pairs)

theorem finds_again (verification : Verification) (tree other : FileTree) (framed : SameButTexts tree other)
    (linkless : tree.Linkless) (versions classes : List String) (finds : verification.Finds tree versions classes) :
    verification.Finds other versions classes := by
  obtain ⟨patterns, first, valid, leads, listed, inFolder, nonempty⟩ := finds
  exact ⟨patterns, first, valid, leads, versions_again framed linkless _ _ _ listed,
    classes_again framed linkless _ _ nonempty inFolder, nonempty⟩

theorem run_calls (verification : Verification) (now : String) (tree : FileTree) (reached : Progress)
    (found : List String × List String)
    (prepared : (verification.prepare .plain).run ⟨tree, [], []⟩ = (.ok found, reached)) :
    (verification.run now tree).2.calls = reached.calls := by
  rw [run_eq, prepared]
  simp only [compare_classes_run, conclude_progress]
  rw [Progress.noting_calls, Progress.noting_calls]

def replaying (verification : Verification) (others : Toolkit) : Verification :=
  { verification with
    tools := { others with library := verification.tools.library }
    options := { verification.options with skipExtract := true, skipDisassemble := true } }

end Verification

-- The tree that the first run leaves differs from the one it began with in text files alone, so the
-- second run discovers the same. Both compare what that tree holds.
theorem run_replayed (verification : Verification) (others : Toolkit) (now later : String) (tree : FileTree)
    (formed : tree.WellFormed) (linkless : tree.Linkless)
    (keepsExtracted : verification.options.skipExtract = true) (reads : Verification.ReadsOnly verification.tools)
    (report : Report) (left : Progress) (ran : verification.run now tree = (.ok report, left)) :
    ((verification.replaying others).run later left.tree).1 = .ok { report with generatedAt := later } ∧
      ((verification.replaying others).run later left.tree).2.calls = [] ∧
      ((verification.replaying others).run later left.tree).2.tree = left.tree := by
  obtain ⟨versions, classes, reached, last, prepared, done, rfl⟩ :=
    (Verification.run_ok_iff verification now tree report).mp (by rw [ran])
  have sameTree : left.tree = reached.tree := by
    rw [← Verification.run_tree verification now tree reached _ prepared, ran]
  obtain ⟨finds, disassembled⟩ :=
    (Verification.prepare_run_iff verification keepsExtracted versions classes _ _).mp prepared
  let found := (Progress.noting ⟨tree, [], []⟩ [.versionsFound versions]).noting [.classesFound classes]
  have framed : Verification.SameButTexts tree reached.tree := by
    have maintained := Verification.disassembling_texts verification reads tree
      (Verification.pairs versions classes) found ⟨formed, linkless, .refl _ tree⟩
    rw [disassembled] at maintained
    exact maintained
  have findsAgain := Verification.finds_again verification tree reached.tree framed linkless versions classes finds
  have preparedAgain : ((verification.replaying others).prepare .plain).run ⟨left.tree, [], []⟩ =
      (.ok (versions, classes), ⟨left.tree, [], [.versionsFound versions, .classesFound classes]⟩) := by
    rw [sameTree]
    exact (Verification.prepare_run_iff (verification.replaying others) rfl versions classes _ _).mpr ⟨findsAgain, rfl⟩
  refine ⟨?_, Verification.run_calls _ later left.tree _ _ preparedAgain,
    Verification.run_tree _ later left.tree ⟨left.tree, [], _⟩ _ preparedAgain⟩
  refine (Verification.run_ok_iff _ _ _ _).mpr ⟨versions, classes, _, last, preparedAgain, ?_, rfl⟩
  rw [sameTree]
  exact done

def leftoverTree : FileTree :=
  ⟨[(["r"], .folder), (["r", "1"], .folder), (["r", "2"], .folder), (["r", "3"], .folder),
    (["r", "1", "c"], .folder), (["r", "2", "c"], .folder), (["r", "1", "c", "A.class"], .ofText ""),
    (["r", "2", "c", "A.class"], .ofText ""), (["r", "3", "bytecode_3_A.txt"], .ofText "  m();"),
    (["r", "3", "bytecode_3_A_methods.txt"], .ofText "  m();")], []⟩

def disassemblingVerification : Verification :=
  { returningVerification with
    tools := ⟨fun _ _ tree => (.ok (), tree), fun folder _ tree =>
      (.ok ⟨methodCalling (if folder = "/r/2" then "n/Y" else "n/X"), listedMethod⟩, tree), "tar", Pattern.library⟩
    options := ⟨true, false, false⟩ }

def brokenTools : Toolkit :=
  ⟨fun _ _ tree => (.error (.notStarted "tar" .notFound), tree),
    fun _ _ tree => (.error (.notStarted "javap" .notFound), tree), "tar", Pattern.library⟩

theorem leftover_formed : leftoverTree.WellFormed where
  distinct := by decide
  placed := by decide
  rooted := rfl

set_option maxRecDepth 10000 in
theorem run_replayed_leftover :
    leftoverTree.Linkless ∧ ∃ report left,
      disassemblingVerification.run "noon" leftoverTree = (.ok report, left) ∧
        outline report = [(["1"], ["2"], [], true)] ∧
        left.calls = [.disassemble "/r/1" "c/A.class", .disassemble "/r/2" "c/A.class"] ∧
        left.tree.isPresent "/r/3/bytecode_3_A.txt" = false ∧
        ((disassemblingVerification.replaying brokenTools).run "dusk" left.tree).1 =
          .ok { report with generatedAt := "dusk" } ∧
        ((disassemblingVerification.replaying brokenTools).run "dusk" left.tree).2.calls = [] ∧
        ((disassemblingVerification.replaying brokenTools).run "dusk" left.tree).2.tree = left.tree := by
  have linkless : leftoverTree.Linkless := by
    simp [FileTree.Linkless, leftoverTree, Entry.ofText]
  have observed : (disassemblingVerification.run "noon" leftoverTree).1.toOption.map outline =
        some [(["1"], ["2"], [], true)] ∧
      (disassemblingVerification.run "noon" leftoverTree).2.calls =
        [.disassemble "/r/1" "c/A.class", .disassemble "/r/2" "c/A.class"] ∧
      (disassemblingVerification.run "noon" leftoverTree).2.tree.isPresent "/r/3/bytecode_3_A.txt" = false := by
    decide +kernel
  generalize ran : disassemblingVerification.run "noon" leftoverTree = outcome at observed
  obtain ⟨result, left⟩ := outcome
  obtain ⟨outlined, calls, removed⟩ := observed
  obtain ⟨report, rfl, listed⟩ := outlined_report result _ outlined
  have reads : Verification.ReadsOnly disassemblingVerification.tools := fun _ _ _ => rfl
  exact ⟨linkless, report, left, rfl, listed, calls, removed,
    run_replayed disassemblingVerification brokenTools "noon" "dusk" leftoverTree leftover_formed linkless rfl
      reads report left ran⟩

end BytecodeParity
