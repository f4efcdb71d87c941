import BytecodeParity.Proofs.ArtifactSlots
import BytecodeParity.Proofs.CallPlan
import BytecodeParity.Proofs.SuccessCoverage

/-!
Artifacts are fresh. When a run that disassembles gets to its comparison, each pair has the texts that
the disassembler gave for it in this run, or none at all: what earlier runs have left is never compared.
-/

set_option autoImplicit false

namespace BytecodeParity

namespace Verification

inductive Settled (verification : Verification) (acts : List Act) (tree : FileTree) (version className : String) : Prop
  | disassembled {before : FileTree} {artifacts : Artifacts}
      (stands : verification.hasClassFile tree version className = true)
      (called : Act.called (.disassemble (verification.folderOf version) (verification.classFileOf className)) before ∈
        acts)
      (answers : (verification.tools.disassemble (verification.folderOf version) (verification.classFileOf className)
        before).1 = .ok artifacts)
      (disassembly : verification.Holds tree version (Layout.disassemblyName version className) artifacts.full)
      (signatures : verification.Holds tree version (Layout.signaturesName version className) artifacts.signatures)
  | bare (absent : verification.hasClassFile tree version className = false)
      (noticed : Act.logged (.notice (.noClassFile version className)) ∈ acts)
      (disassembly : verification.slot? tree version (Layout.disassemblyName version className) = none)
      (signatures : verification.slot? tree version (Layout.signaturesName version className) = none)

section Stages

variable {verification : Verification} {pattern : Matcher} {tree last : FileTree}

theorem step_settles (rooted : verification.root ≠ "") (reads : ReadsOnly verification.tools) (plain : tree.Plain)
    {version className : String} {acts : List Act} (isVersion : Path.IsName version)
    (isClass : '/' ∉ className.toList)
    (step : Step verification pattern (.disassembly version className) tree acts none last) :
    verification.Touches (slotsOf version className) tree last ∧
      verification.Settled acts last version className := by
  cases step with
  | noClassFile clears absent =>
      obtain ⟨touches, noDisassembly, noSignatures⟩ :=
        clear_artifacts_touches plain rooted isVersion isClass clears
      exact ⟨touches, .bare absent (List.mem_singleton_self _) noDisassembly noSignatures⟩
  | @disassembled _ _ _ cleared answered _ artifacts clears stands answers keeps =>
      obtain ⟨first, _, _⟩ := clear_artifacts_touches plain rooted isVersion isClass clears
      have unchanged : answered = cleared := by
        have same := reads (verification.folderOf version) (verification.classFileOf className) cleared
        rw [answers] at same
        exact same
      subst unchanged
      obtain ⟨second, disassembly, signatures⟩ :=
        keep_artifacts_touches first.plain rooted isVersion isClass artifacts keeps
      refine ⟨first.trans second, .disassembled ?_ (List.mem_cons_self ..) ?_ disassembly signatures⟩
      · exact (touches_class_file first.plain rooted isClass second).trans stands
      · rw [answers]

theorem Settled.kept {slots : List (String × String)} {acts : List Act} {version className : String}
    (settled : verification.Settled acts tree version className) (rooted : verification.root ≠ "") (plain : tree.Plain)
    (isVersion : Path.IsName version) (isClass : '/' ∉ className.toList)
    (touches : verification.Touches slots tree last) (apart : (slotsOf version className).Disjoint slots) :
    verification.Settled acts last version className := by
  have classFile : verification.hasClassFile last version className =
      verification.hasClassFile tree version className :=
    touches_class_file plain rooted isClass touches
  have first : (version, Layout.disassemblyName version className) ∉ slots := apart (by simp [slotsOf])
  have second : (version, Layout.signaturesName version className) ∉ slots := apart (by simp [slotsOf])
  cases settled with
  | disassembled stands called answers disassembly signatures =>
      exact .disassembled (classFile.trans stands) called answers
        (touches.holds isVersion first disassembly) (touches.holds isVersion second signatures)
  | bare absent noticed disassembly signatures =>
      exact .bare (classFile.trans absent) noticed ((touches.apart _ _ isVersion first).trans disassembly)
        ((touches.apart _ _ isVersion second).trans signatures)

theorem Settled.mono {acts more : List Act} {version className : String}
    (settled : verification.Settled acts tree version className) (within : acts ⊆ more) :
    verification.Settled more tree version className := by
  cases settled with
  | disassembled stands called answers disassembly signatures =>
      exact .disassembled stands (within called) answers disassembly signatures
  | bare absent noticed disassembly signatures => exact .bare absent (within noticed) disassembly signatures

def slotsOfPairs (pairs : List (String × String)) : List (String × String) :=
  pairs.flatMap fun pair => slotsOf pair.1 pair.2

theorem steps_settle (rooted : verification.root ≠ "") (reads : ReadsOnly verification.tools)
    (pairs : List (String × String)) (acts : List Act) (plain : tree.Plain)
    (named : ∀ pair ∈ pairs, Path.IsName pair.1 ∧ '/' ∉ pair.2.toList) (apart : (slotsOfPairs pairs).Nodup)
    (steps : Steps verification pattern (pairs.map fun pair => .disassembly pair.1 pair.2) tree acts none last) :
    verification.Touches (slotsOfPairs pairs) tree last ∧
      ∀ pair ∈ pairs, verification.Settled acts last pair.1 pair.2 := by
  induction pairs generalizing tree acts with
  | nil =>
      cases steps
      exact ⟨.refl plain, fun pair member => absurd member List.not_mem_nil⟩
  | cons pair pairs ih =>
      cases steps with
      | @next _ _ _ between _ acts more _ step rest =>
          obtain ⟨isVersion, isClass⟩ := named pair (List.mem_cons_self ..)
          obtain ⟨_, apartLater, disjoint⟩ := List.nodup_append'.mp apart
          obtain ⟨first, settled⟩ := step_settles rooted reads plain isVersion isClass step
          obtain ⟨later, others⟩ := ih more first.plain
            (fun other member => named other (List.mem_cons_of_mem _ member)) apartLater rest
          refine ⟨(first.mono (List.subset_append_left ..)).trans (later.mono (List.subset_append_right ..)), ?_⟩
          intro other member
          -- The later stages leave the pair settled, since no two pairs have a slot in common.
          rcases List.mem_cons.mp member with rfl | inRest
          · exact (settled.kept rooted first.plain isVersion isClass later disjoint).mono (List.subset_append_left ..)
          · exact (others other inRest).mono (List.subset_append_right ..)

theorem cleans_plain {version : String} {cleaned : FileTree} (plain : tree.Plain)
    (cleans : verification.Cleans version tree cleaned) : cleaned.Plain := by
  have kept := Discovery.clean_plain (verification.folderOf version) verification.config.cleanDirs tree plain
  rw [Cleans] at cleans
  rw [cleans] at kept
  exact kept

-- An extractor that unpacks no links, and gives all it unpacks a name and a folder. A link could make one
-- file of the artifacts of two versions.
def UnpacksPlain (tools : Toolkit) : Prop :=
  ∀ archive folder tree, tree.Plain → (tools.extract archive folder tree).2.Plain

theorem extraction_plain {version : String} {acts : List Act} (unpacks : UnpacksPlain verification.tools)
    (plain : tree.Plain) (step : Step verification pattern (.extraction version) tree acts none last) : last.Plain := by
  cases step with
  | noArchive cleans absent => exact cleans_plain plain cleans
  | @extracted _ name _ cleaned _ cleans first answers =>
      have unpacked := unpacks (Path.join (verification.folderOf version) name) (verification.folderOf version) cleaned
        (cleans_plain plain cleans)
      rw [answers] at unpacked
      exact unpacked

theorem extractions_plain (unpacks : verification.options.skipExtract = false → UnpacksPlain verification.tools)
    (versions : List String) (acts : List Act) (plain : tree.Plain)
    (steps : Steps verification pattern (verification.extractions versions) tree acts none last) : last.Plain := by
  rw [extractions] at steps
  split at steps
  · cases steps
    exact plain
  · next extracts =>
      induction versions generalizing tree acts with
      | nil =>
          cases steps
          exact plain
      | cons version versions ih =>
          cases steps with
          | next step rest => exact ih _ (extraction_plain (unpacks (by simpa using extracts)) plain step) rest

end Stages

theorem slots_apart (verification : Verification) (versions classes : List String) (distinct : versions.Nodup)
    (apart : ∀ version ∈ versions, (classes.flatMap fun className =>
      [(verification.artifactsOf version className).disassembly,
        (verification.artifactsOf version className).signatures]).Nodup) :
    (slotsOfPairs (pairs versions classes)).Nodup := by
  have grouped : slotsOfPairs (pairs versions classes) =
      versions.flatMap fun version => classes.flatMap (slotsOf version) := by
    simp only [slotsOfPairs, pairs, List.flatMap_assoc, List.flatMap_map]
  rw [grouped, List.nodup_flatMap]
  refine ⟨fun version member => ?_, distinct.imp fun different => ?_⟩
  · refine List.Nodup.of_map (fun slot => Path.join (verification.folderOf slot.1) slot.2) ?_
    have paths := apart version member
    simp only [artifacts_of_eq] at paths
    simpa only [List.map_flatMap, slotsOf, List.map_cons, List.map_nil] using paths
  · rintro ⟨version, name⟩ first second
    simp only [slotsOf, List.mem_flatMap, List.mem_cons, Prod.mk.injEq, List.not_mem_nil, or_false] at first second
    obtain ⟨_, _, first⟩ := first
    obtain ⟨_, _, second⟩ := second
    exact different ((first.elim (·.1) (·.1)).symm.trans (second.elim (·.1) (·.1)))

section Pairs

variable (verification : Verification) (tree : FileTree) (version className : String)

def Fresh (acts : List Act) : Prop :=
  ∃ before artifacts,
    Act.called (.disassemble (verification.folderOf version) (verification.classFileOf className)) before ∈ acts ∧
      (verification.tools.disassemble (verification.folderOf version) (verification.classFileOf className) before).1 =
        .ok artifacts ∧
      tree.readText (verification.artifactsOf version className).disassembly = .ok artifacts.full ∧
      tree.readText (verification.artifactsOf version className).signatures = .ok artifacts.signatures ∧
      verification.readPair tree (version, className) = .ok (.built (.listed version className)
        (Disassembly.buildListed verification.config.namespacePrefix version className
          (Text.lines artifacts.signatures) (Text.lines artifacts.full)))

structure Bare (outcome : Except RunError Report × Progress) : Prop where
  noDisassembly : tree.isPresent (verification.artifactsOf version className).disassembly = false
  noSignatures : tree.isPresent (verification.artifactsOf version className).signatures = false
  noticed : .noClassFile version className ∈ outcome.2.notices
  unbuilt : ∀ scope build, verification.readPair tree (version, className) ≠ .ok (.built scope build)
  absent : tree.isFolder (verification.folderOf version) →
    verification.readPair tree (version, className) = .ok (.absent version className)
  warned : ∀ report, outcome.1 = .ok report → .noDisassembly version className ∈ outcome.2.notices ∨
    ∃ entry ∈ report.classes, entry.className = some className ∧ entry.halted

end Pairs

section Outcome

variable {verification : Verification} {tree : FileTree} {version className : String}

theorem Settled.is_fresh {acts : List Act} (settled : verification.Settled acts tree version className)
    (plain : tree.Plain) (rooted : verification.root ≠ "") (isVersion : Path.IsName version)
    (isClass : '/' ∉ className.toList) (stands : verification.hasClassFile tree version className = true) :
    verification.Fresh tree version className acts := by
  obtain ⟨isFirst, isSecond⟩ := Layout.artifact_names_free isVersion.free isClass
  cases settled with
  | bare absent =>
      rw [absent] at stands
      cases stands
  | @disassembled before artifacts _ called answers disassembly signatures =>
      have first := holds_text plain rooted isFirst artifacts.full disassembly
      have second := holds_text plain rooted isSecond artifacts.signatures signatures
      have paths := artifacts_of_eq verification version className
      rw [Fresh, paths]
      refine ⟨before, artifacts, called, answers, first, second, ?_⟩
      rw [artifactsOf] at paths
      simp only [readPair, Discovery.readLines, paths, first, second]
      rfl

theorem run_log (now : String) {versions classes : List String} {reached : Progress}
    (prepared : (verification.prepare .plain).run ⟨tree, [], []⟩ = (.ok (versions, classes), reached)) :
    reached.log ++ [.comparing] ++ (verification.compared reached.tree (pairs versions classes)).2.log <+:
      (verification.run now tree).2.log := by
  rw [run_eq, prepared]
  simp only [compare_classes_run]
  exact conclude_adds_log now .perClass versions _ _ (reached.noting [.comparing])

theorem run_warned {now : String} {versions classes : List String} {reached : Progress} {report : Report}
    (prepared : (verification.prepare .plain).run ⟨tree, [], []⟩ = (.ok (versions, classes), reached))
    (reported : (verification.run now tree).1 = .ok report) (isVersion : version ∈ versions)
    (isClass : className ∈ classes) (bare : verification.isKept reached.tree (version, className) = false) :
    .noDisassembly version className ∈ (verification.run now tree).2.notices ∨
      ∃ entry ∈ report.classes, entry.className = some className ∧ entry.halted := by
  obtain ⟨_, _, _, last, same, done, rfl⟩ := (run_ok_iff verification now tree report).mp reported
  rw [prepared] at same
  cases same
  cases halted : last.isHalted (some className) with
  | true =>
      obtain ⟨entry, member, isEntry⟩ := List.any_eq_true.mp halted
      rw [Bool.and_eq_true, decide_eq_true_eq] at isEntry
      exact .inr ⟨entry, member, isEntry⟩
  | false =>
      have isPair := (mem_pairs_iff versions classes version className).mpr ⟨isVersion, isClass⟩
      obtain ⟨reading, read, noticed⟩ :=
        Session.compare_unhalted (read_pair_faithful verification reached.tree) _ _ last (Session.start_valid _) done
          (version, className) isPair halted
      have absent := (read_pair_kept verification reached.tree _ reading read).2 bare
      have added := (run_log now prepared).filterMap LogEntry.notice?
      rw [done, List.filterMap_append] at added
      exact .inl (added.subset (List.mem_append_right _ (noticed _ _ absent)))

theorem Settled.is_bare {acts : List Act} (settled : verification.Settled acts tree version className)
    (plain : tree.Plain) (rooted : verification.root ≠ "") (isVersion : Path.IsName version)
    (isClass : '/' ∉ className.toList) (absent : verification.hasClassFile tree version className = false)
    (outcome : Except RunError Report × Progress) (logged : acts.filterMap Act.entry? ⊆ outcome.2.log)
    (warned : verification.isKept tree (version, className) = false → ∀ report, outcome.1 = .ok report →
      .noDisassembly version className ∈ outcome.2.notices ∨
        ∃ entry ∈ report.classes, entry.className = some className ∧ entry.halted) :
    verification.Bare tree version className outcome := by
  obtain ⟨isFirst, isSecond⟩ := Layout.artifact_names_free isVersion.free isClass
  cases settled with
  | disassembled stands =>
      rw [absent] at stands
      cases stands
  | bare _ isNoticed disassembly signatures =>
      have paths := artifacts_of_eq verification version className
      have noDisassembly := slot_absent plain rooted isFirst disassembly
      have notKept : verification.isKept tree (version, className) = false := by
        rw [isKept, ← artifactsOf, paths, noDisassembly]
      refine {
        noDisassembly := by rw [paths, noDisassembly]
        noSignatures := by rw [paths, slot_absent plain rooted isSecond signatures]
        noticed := mem_notices_of (logged (List.mem_filterMap.mpr ⟨_, isNoticed, rfl⟩))
        unbuilt := fun scope build read => ?_
        absent := fun stands => ?_
        warned := warned notKept }
      · cases (read_pair_kept verification tree _ _ read).2 notKept
      · rw [artifactsOf] at paths
        simp only [readPair, paths, slot_unread plain rooted isFirst disassembly stands]
        rfl

end Outcome

-- What an earlier run has left is not compared: the texts of a pair are those of this run's own call.
theorem artifacts_fresh (verification : Verification) (now : String) (tree : FileTree)
    (versions classes : List String) (reached : Progress) (plain : tree.Plain)
    (disassembles : verification.options.skipDisassemble = false) (reads : ReadsOnly verification.tools)
    (unpacks : verification.options.skipExtract = false → UnpacksPlain verification.tools)
    (prepared : (verification.prepare .plain).run ⟨tree, [], []⟩ = (.ok (versions, classes), reached))
    (apart : ∀ version ∈ versions, (classes.flatMap fun className =>
      [(verification.artifactsOf version className).disassembly,
        (verification.artifactsOf version className).signatures]).Nodup) :
    ∃ patterns acts, verification.patterns = .ok patterns ∧
      Plan verification patterns.archive tree versions classes acts none (verification.run now tree).2.tree ∧
      (verification.run now tree).2.calls = acts.filterMap Act.call? ∧
      ∀ version ∈ versions, ∀ className ∈ classes,
        (verification.hasClassFile (verification.run now tree).2.tree version className = true →
          verification.Fresh (verification.run now tree).2.tree version className acts) ∧
        (verification.hasClassFile (verification.run now tree).2.tree version className = false →
          verification.Bare (verification.run now tree).2.tree version className (verification.run now tree)) := by
  obtain ⟨patterns, acts, valid, listed, plan, progress⟩ :=
    prepared_plan verification ⟨tree, [], []⟩ reached versions classes prepared
  have called : (verification.run now tree).2.calls = acts.filterMap Act.call? := by
    rw [run_calls verification now tree reached _ prepared, progress]
    exact List.nil_append _
  have logged : reached.log = acts.filterMap Act.entry? := by
    rw [progress]
    exact List.nil_append _
  rw [run_tree verification now tree reached _ prepared]
  refine ⟨patterns, acts, valid, plan, called, fun version isVersion className isClass => ?_⟩
  obtain ⟨rooted, distinct, versionsNamed⟩ := Discovery.versions_named plain verification.root patterns.version versions listed
  have settled : reached.tree.Plain ∧ '/' ∉ className.toList ∧
      verification.Settled acts reached.tree version className := by
    generalize reached.tree = left at plan
    cases plan with
    | nothing => cases isVersion
    | @through head rest _ first later extracted _ _ extracting found disassembling =>
        have extractedPlain := extractions_plain unpacks (head :: rest) first plain extracting
        have classesNamed := Discovery.classes_named extractedPlain _ classes found
        have named : ∀ pair ∈ pairs (head :: rest) classes, Path.IsName pair.1 ∧ '/' ∉ pair.2.toList := by
          rintro ⟨other, otherClass⟩ member
          obtain ⟨known, knownClass⟩ := (mem_pairs_iff (head :: rest) classes other otherClass).mp member
          exact ⟨versionsNamed other known, classesNamed otherClass knownClass⟩
        rw [disassemblies, disassembles, if_neg (by simp)] at disassembling
        obtain ⟨touches, settled⟩ := steps_settle rooted reads (pairs (head :: rest) classes) later extractedPlain named
          (slots_apart verification (head :: rest) classes distinct apart) disassembling
        refine ⟨touches.plain, classesNamed className isClass, ?_⟩
        have isPair := (mem_pairs_iff (head :: rest) classes version className).mpr ⟨isVersion, isClass⟩
        exact (settled (version, className) isPair).mono
          (List.Subset.trans (List.subset_cons_self ..) (List.subset_append_right ..))
  obtain ⟨reachedPlain, classNamed, settled⟩ := settled
  have isName := versionsNamed version isVersion
  refine ⟨settled.is_fresh reachedPlain rooted isName classNamed, fun absent => ?_⟩
  refine settled.is_bare reachedPlain rooted isName classNamed absent _ ?_ fun bare report reported =>
    run_warned prepared reported isVersion isClass bare
  rw [← logged]
  exact ((List.prefix_append _ _).trans ((List.prefix_append _ _).trans (run_log now prepared))).subset

end Verification

def staleTree : FileTree :=
  ⟨[(["r"], .folder), (["r", "1"], .folder), (["r", "2"], .folder), (["r", "1", "c"], .folder),
    (["r", "1", "c", "A.class"], .ofText ""), (["r", "1", "bytecode_1_A.txt"], .ofText "  old();"),
    (["r", "2", "bytecode_2_A.txt"], .ofText "  old();"), (["r", "2", "bytecode_2_A_methods.txt"], .ofText "  old();")],
    []⟩

theorem stale_plain : staleTree.Plain where
  distinct := by decide
  placed := by decide
  linkless := by simp [FileTree.Linkless, staleTree, Entry.ofText]
  named := by decide

set_option maxRecDepth 10000 in
theorem artifacts_fresh_stale :
    ∃ acts reached,
      (disassemblingVerification.prepare .plain).run ⟨staleTree, [], []⟩ = (.ok (["1", "2"], ["A"]), reached) ∧
      disassemblingVerification.Fresh (disassemblingVerification.run "noon" staleTree).2.tree "1" "A" acts ∧
      disassemblingVerification.Bare (disassemblingVerification.run "noon" staleTree).2.tree "2" "A"
        (disassemblingVerification.run "noon" staleTree) := by
  have found : ((disassemblingVerification.prepare .plain).run ⟨staleTree, [], []⟩).1.toOption = some (["1", "2"], ["A"]) := by
    decide +kernel
  have classFiles : (["1", "2"].map fun version => disassemblingVerification.hasClassFile
      (disassemblingVerification.run "noon" staleTree).2.tree version "A") = [true, false] := by
    decide +kernel
  obtain ⟨reached, prepared⟩ : ∃ reached,
      (disassemblingVerification.prepare .plain).run ⟨staleTree, [], []⟩ = (.ok (["1", "2"], ["A"]), reached) := by
    generalize (disassemblingVerification.prepare .plain).run ⟨staleTree, [], []⟩ = outcome at found
    obtain ⟨result, reached⟩ := outcome
    cases result with
    | error error => cases found
    | ok pair =>
        cases found
        exact ⟨reached, rfl⟩
  obtain ⟨_, acts, _, _, _, settled⟩ := Verification.artifacts_fresh disassemblingVerification "noon" staleTree
    ["1", "2"] ["A"] reached stale_plain rfl (fun _ _ _ => rfl) (fun extracts => by cases extracts) prepared (by decide)
  refine ⟨acts, reached, prepared, ?_⟩
  generalize disassemblingVerification.run "noon" staleTree = outcome at classFiles settled
  simp only [List.map_cons, List.map_nil, List.cons.injEq, and_true] at classFiles
  obtain ⟨stands, absent⟩ := classFiles
  exact ⟨(settled "1" (by simp) "A" (by simp)).1 stands, (settled "2" (by simp) "A" (by simp)).2 absent⟩

end BytecodeParity
