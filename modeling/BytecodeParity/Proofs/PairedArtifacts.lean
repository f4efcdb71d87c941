import BytecodeParity.Proofs.ClassOrder
import BytecodeParity.Proofs.FreshArtifacts

/-!
The two texts of a pair come and go together. Both are removed before the disassembler is called and both are
written after it has answered, so a run that ends at a call that fails has left no pair with one text alone, and
a later run over what is there does not miss the second text of any pair.
-/

set_option autoImplicit false

namespace BytecodeParity

namespace FileTree

def SameAt (tree last : FileTree) (path : String) : Prop :=
  ∀ location entry, last.locate true path = .ok (location, entry) ↔ tree.locate true path = .ok (location, entry)

theorem is_present_iff (tree : FileTree) (path : String) :
    tree.isPresent path ↔ ∃ location entry, tree.locate true path = .ok (location, entry) := by
  rw [isPresent]
  cases tree.locate true path with
  | error cause => simp
  | ok found => exact iff_of_true rfl ⟨found.1, found.2, rfl⟩

theorem SameAt.present {tree last : FileTree} {path : String} (same : tree.SameAt last path) :
    last.isPresent path = tree.isPresent path := by
  rw [Bool.eq_iff_iff, is_present_iff, is_present_iff]
  exact exists_congr fun location => exists_congr fun entry => same location entry

end FileTree

namespace Verification

def PairedAt (verification : Verification) (tree : FileTree) (pair : String × String) : Prop :=
  tree.isPresent (verification.artifactsOf pair.1 pair.2).disassembly =
    tree.isPresent (verification.artifactsOf pair.1 pair.2).signatures

-- Of each version and class both texts are there, or none.
def Paired (verification : Verification) (tree : FileTree) (versions classes : List String) : Prop :=
  ∀ pair ∈ pairs versions classes, verification.PairedAt tree pair

instance (verification : Verification) (tree : FileTree) (pair : String × String) :
    Decidable (verification.PairedAt tree pair) :=
  decEq (tree.isPresent (verification.artifactsOf pair.1 pair.2).disassembly)
    (tree.isPresent (verification.artifactsOf pair.1 pair.2).signatures)

instance (verification : Verification) (tree : FileTree) (versions classes : List String) :
    Decidable (verification.Paired tree versions classes) :=
  inferInstanceAs (Decidable (∀ pair ∈ pairs versions classes, verification.PairedAt tree pair))

section Cut

variable {verification : Verification} {pattern : Matcher}

theorem steps_cut {stages : List Stage} {tree last : FileTree} {acts : List Act} {error : ToolError}
    (steps : Steps verification pattern stages tree acts (some error) last) :
    ∃ done failing rest earlier between final, stages = done ++ failing :: rest ∧
      Steps verification pattern done tree earlier none between ∧
      Step verification pattern failing between final (some error) last := by
  generalize failed : some error = failure at steps
  induction steps with
  | done => cases failed
  | @next stage stages tree between last acts more failure step rest ih =>
      obtain ⟨done, failing, later, earlier, reached, final, rfl, through, fails⟩ := ih failed
      exact ⟨stage :: done, failing, later, acts ++ earlier, reached, final, rfl, .next step through, fails⟩
  | @stop stage stages tree last acts error step =>
      cases failed
      exact ⟨[], stage, stages, [], tree, acts, rfl, .done, step⟩

end Cut

section Slots

variable {verification : Verification} {tree last : FileTree} (plain : tree.Plain) (rooted : verification.root ≠ "")
  {version className : String} (isVersion : Path.IsName version) (isClass : '/' ∉ className.toList)
include plain rooted isVersion isClass

theorem artifacts_present :
    tree.isPresent (verification.artifactsOf version className).disassembly =
        (verification.slot? tree version (Layout.disassemblyName version className)).isSome ∧
      tree.isPresent (verification.artifactsOf version className).signatures =
        (verification.slot? tree version (Layout.signaturesName version className)).isSome := by
  obtain ⟨isFirst, isSecond⟩ := Layout.artifact_names_free isVersion.free isClass
  rw [artifacts_of_eq]
  dsimp only
  exact ⟨plain.is_present_in_folder (folder_given rooted version) isFirst,
    plain.is_present_in_folder (folder_given rooted version) isSecond⟩

theorem Settled.paired {acts : List Act} (settled : verification.Settled acts tree version className) :
    verification.PairedAt tree (version, className) := by
  obtain ⟨first, second⟩ := artifacts_present plain rooted isVersion isClass
  rw [PairedAt, first, second]
  cases settled with
  | disassembled _ _ _ disassembly signatures =>
      obtain ⟨_, disassembly⟩ := disassembly
      obtain ⟨_, signatures⟩ := signatures
      rw [disassembly, signatures, Option.isSome_some, Option.isSome_some]
  | bare _ _ disassembly signatures => rw [disassembly, signatures]

omit isClass in
theorem Touches.same_at {slots : List (String × String)} (touches : verification.Touches slots tree last) {name : String}
    (isName : Path.IsName name) (outside : (version, name) ∉ slots) :
    tree.SameAt last (Path.join (verification.folderOf version) name) := by
  intro location entry
  have given := folder_given rooted version
  rw [FileTree.locate_join_iff touches.plain.linkless _ _ given isName,
    FileTree.locate_join_iff plain.linkless _ _ given isName]
  have sameFolders := fun folder => touches.folders.locate_iff plain.linkless touches.plain.linkless
    (verification.folderOf version) folder
  simp only [sameFolders]
  refine exists_congr fun folder => and_congr_right fun leads => and_congr_right fun spelled => ?_
  have same := touches.apart version name isVersion outside
  rw [slot?, slot?, FileTree.in_folder_of_locate leads,
    FileTree.in_folder_of_locate ((sameFolders folder).mpr leads)] at same
  rw [spelled, same]

theorem Touches.same_pair {slots : List (String × String)} (touches : verification.Touches slots tree last)
    (apart : (slotsOf version className).Disjoint slots) :
    tree.SameAt last (verification.artifactsOf version className).disassembly ∧
      tree.SameAt last (verification.artifactsOf version className).signatures := by
  obtain ⟨isFirst, isSecond⟩ := Layout.artifact_names_free isVersion.free isClass
  rw [artifacts_of_eq]
  dsimp only
  exact ⟨touches.same_at plain rooted isVersion isFirst (apart (by simp [slotsOf])),
    touches.same_at plain rooted isVersion isSecond (apart (by simp [slotsOf]))⟩

theorem failed_step_clears {pattern : Matcher} {acts : List Act} {error : ToolError}
    (reads : ReadsOnly verification.tools)
    (step : Step verification pattern (.disassembly version className) tree acts (some error) last) :
    verification.Touches (slotsOf version className) tree last ∧
      verification.slot? last version (Layout.disassemblyName version className) = none ∧
      verification.slot? last version (Layout.signaturesName version className) = none ∧
      ∃ before, (verification.tools.disassemble (verification.folderOf version) (verification.classFileOf className)
        before).1 = .error error := by
  cases step with
  | @notDisassembled _ _ _ cleared _ _ clears stands answers =>
      have unchanged := reads (verification.folderOf version) (verification.classFileOf className) cleared
      rw [answers] at unchanged
      obtain rfl : last = cleared := unchanged
      obtain ⟨touches, first, second⟩ := clear_artifacts_touches plain rooted isVersion isClass clears
      exact ⟨touches, first, second, last, by rw [answers]⟩

end Slots

-- What a call that fails leaves behind: nothing of its own pair, and the later pairs as they were.
structure StopsAt (verification : Verification) (tree last : FileTree) (failing : String × String)
    (rest : List (String × String)) (error : ToolError) : Prop where
  refused : ∃ before, (verification.tools.disassemble (verification.folderOf failing.1)
    (verification.classFileOf failing.2) before).1 = .error error
  noDisassembly : last.isPresent (verification.artifactsOf failing.1 failing.2).disassembly = false
  noSignatures : last.isPresent (verification.artifactsOf failing.1 failing.2).signatures = false
  untouched : ∀ pair ∈ rest, tree.SameAt last (verification.artifactsOf pair.1 pair.2).disassembly ∧
    tree.SameAt last (verification.artifactsOf pair.1 pair.2).signatures

section Stages

variable {verification : Verification} {pattern : Matcher} {tree last : FileTree}

theorem slots_of_pair_subset {pair : String × String} {pairs : List (String × String)} (member : pair ∈ pairs) :
    slotsOf pair.1 pair.2 ⊆ slotsOfPairs pairs :=
  fun _ isSlot => List.mem_flatMap.mpr ⟨pair, member, isSlot⟩

theorem Touches.same_pairs {slots : List (String × String)} (touches : verification.Touches slots tree last)
    (plain : tree.Plain) (rooted : verification.root ≠ "") (pairs : List (String × String))
    (named : ∀ pair ∈ pairs, Path.IsName pair.1 ∧ '/' ∉ pair.2.toList) (apart : (slotsOfPairs pairs).Disjoint slots) :
    ∀ pair ∈ pairs, tree.SameAt last (verification.artifactsOf pair.1 pair.2).disassembly ∧
      tree.SameAt last (verification.artifactsOf pair.1 pair.2).signatures := by
  intro pair member
  obtain ⟨isVersion, isClass⟩ := named pair member
  exact touches.same_pair plain rooted isVersion isClass fun slot isSlot =>
    apart (slots_of_pair_subset member isSlot)

theorem cut_leaves_paired (rooted : verification.root ≠ "") (reads : ReadsOnly verification.tools)
    (done : List (String × String)) (failing : String × String) (rest : List (String × String)) (plain : tree.Plain)
    (named : ∀ pair ∈ done ++ failing :: rest, Path.IsName pair.1 ∧ '/' ∉ pair.2.toList)
    (apart : (slotsOfPairs (done ++ failing :: rest)).Nodup)
    (paired : ∀ pair ∈ done ++ failing :: rest, verification.PairedAt tree pair) {between : FileTree}
    {acts final : List Act} {error : ToolError}
    (steps : Steps verification pattern (done.map fun pair => .disassembly pair.1 pair.2) tree acts none between)
    (step : Step verification pattern (.disassembly failing.1 failing.2) between final (some error) last) :
    verification.Touches (slotsOfPairs (done ++ failing :: rest)) tree last ∧
      (∀ pair ∈ done ++ failing :: rest, verification.PairedAt last pair) ∧
      verification.StopsAt tree last failing rest error := by
  rw [slotsOfPairs, List.flatMap_append, List.flatMap_cons, ← slotsOfPairs, ← slotsOfPairs] at apart ⊢
  obtain ⟨apartDone, apartRest, doneApart⟩ := List.nodup_append'.mp apart
  obtain ⟨_, _, restApart⟩ := List.nodup_append'.mp apartRest
  obtain ⟨isVersion, isClass⟩ := named failing (by simp)
  obtain ⟨first, settled⟩ := steps_settle rooted reads done acts plain
    (fun pair member => named pair (List.mem_append_left _ member)) apartDone steps
  obtain ⟨second, noDisassembly, noSignatures, refused⟩ :=
    failed_step_clears first.plain rooted isVersion isClass reads step
  have whole : verification.Touches (slotsOfPairs done ++ slotsOf failing.1 failing.2) tree last :=
    (first.mono (List.subset_append_left ..)).trans (second.mono (List.subset_append_right ..))
  have untouched := whole.same_pairs plain rooted rest (fun pair member => named pair (by simp [member])) <| by
    intro slot isRest isOther
    rcases List.mem_append.mp isOther with inDone | inFailing
    · exact doneApart inDone (List.mem_append_right _ isRest)
    · exact restApart inFailing isRest
  obtain ⟨firstPresent, secondPresent⟩ := artifacts_present second.plain rooted isVersion isClass
  rw [noDisassembly, Option.isSome_none] at firstPresent
  rw [noSignatures, Option.isSome_none] at secondPresent
  refine ⟨whole.mono ?_, fun pair member => ?_, refused, firstPresent, secondPresent, untouched⟩
  · rw [← List.append_assoc]
    exact List.subset_append_left ..
  · rcases List.mem_append.mp member with inDone | later
    · obtain ⟨otherVersion, otherClass⟩ := named pair member
      refine ((settled pair inDone).kept rooted first.plain otherVersion otherClass second ?_).paired second.plain rooted
        otherVersion otherClass
      exact fun slot isSlot isOther =>
        doneApart (slots_of_pair_subset inDone isSlot) (List.mem_append_left _ isOther)
    · rcases List.mem_cons.mp later with rfl | inRest
      · exact firstPresent.trans secondPresent.symm
      · obtain ⟨sameFirst, sameSecond⟩ := untouched pair inRest
        rw [PairedAt, sameFirst.present, sameSecond.present]
        exact paired pair member

theorem steps_leave_paired (rooted : verification.root ≠ "") (reads : ReadsOnly verification.tools)
    (pairs : List (String × String)) (plain : tree.Plain)
    (named : ∀ pair ∈ pairs, Path.IsName pair.1 ∧ '/' ∉ pair.2.toList) (apart : (slotsOfPairs pairs).Nodup)
    (paired : ∀ pair ∈ pairs, verification.PairedAt tree pair) {acts : List Act} {failure : Option ToolError}
    (steps : Steps verification pattern (pairs.map fun pair => .disassembly pair.1 pair.2) tree acts failure last) :
    verification.Touches (slotsOfPairs pairs) tree last ∧ (∀ pair ∈ pairs, verification.PairedAt last pair) ∧
      ∀ error, failure = some error → ∃ done failing rest, pairs = done ++ failing :: rest ∧
        verification.StopsAt tree last failing rest error := by
  cases failure with
  | none =>
      obtain ⟨touches, settled⟩ := steps_settle rooted reads pairs acts plain named apart steps
      refine ⟨touches, fun pair member => ?_, fun error same => by cases same⟩
      obtain ⟨isVersion, isClass⟩ := named pair member
      exact (settled pair member).paired touches.plain rooted isVersion isClass
  | some error =>
      obtain ⟨before, _, _, earlier, between, final, split, through, step⟩ := steps_cut steps
      obtain ⟨done, others, rfl, rfl, same⟩ := List.map_eq_append_iff.mp split
      obtain ⟨failing, rest, rfl, rfl, rfl⟩ := List.map_eq_cons_iff.mp same
      obtain ⟨touches, stays, stops⟩ :=
        cut_leaves_paired rooted reads done failing rest plain named apart paired through step
      exact ⟨touches, stays, fun other same => by cases same; exact ⟨done, failing, rest, rfl, stops⟩⟩

theorem Touches.versions_again {slots : List (String × String)} (touches : verification.Touches slots tree last)
    (plain : tree.Plain) (root : String) (pattern : Matcher) (found again : List String)
    (listed : Discovery.versions tree root pattern = .ok found)
    (listedAgain : Discovery.versions last root pattern = .ok again) : again = found := by
  obtain ⟨location, leads, holds⟩ := Discovery.mem_versions_iff tree plain.distinct root pattern found listed
  obtain ⟨other, leadsAgain, holdsAgain⟩ :=
    Discovery.mem_versions_iff last touches.plain.distinct root pattern again listedAgain
  rw [touches.folders.locate_iff plain.linkless touches.plain.linkless, leads] at leadsAgain
  cases leadsAgain
  have ascending := Discovery.sorted_names_strict plain.distinct listed
  have ascendingAgain := Discovery.sorted_names_strict touches.plain.distinct listedAgain
  have same : again.Perm found := by
    refine (List.perm_ext_iff_of_nodup (ascendingAgain.imp ne_of_lt) (ascending.imp ne_of_lt)).mpr fun name => ?_
    rw [holdsAgain, holds, touches.folders.folders]
  exact same.eq_of_pairwise' (ascendingAgain.imp le_of_lt) (ascending.imp le_of_lt)

theorem Touches.class_file_again {slots : List (String × String)} (touches : verification.Touches slots tree last)
    (plain : tree.Plain) (folder file : String) (again : Discovery.IsClassFile last folder file) :
    Discovery.IsClassFile tree folder file := by
  obtain ⟨_, read, entry, member, kept⟩ := again
  obtain ⟨location, leads, rfl⟩ := (Discovery.read_folder_ok_iff _).mp read
  have noText : Layout.isText (location ++ [file]) = false := by
    rw [Layout.is_text_concat]
    exact Layout.class_name_no_text file (Bool.and_eq_true_iff.mp kept).2
  rw [FileTree.mem_children_iff, ← FileTree.find_iff_mem last touches.plain.distinct _ (by simp),
    touches.others _ noText, FileTree.find_iff_mem tree plain.distinct _ (by simp),
    ← FileTree.mem_children_iff] at member
  have leadsBefore := (touches.folders.locate_iff plain.linkless touches.plain.linkless folder location).mp leads
  exact ⟨_, (Discovery.read_folder_ok_iff _).mpr ⟨location, leadsBefore, rfl⟩, entry, member, kept⟩

theorem Touches.classes_again {slots : List (String × String)} (touches : verification.Touches slots tree last)
    (plain : tree.Plain) (folder : String) (found again : List String)
    (known : Discovery.classes tree folder = .ok found) (knownAgain : Discovery.classes last folder = .ok again) :
    again ⊆ found := by
  obtain ⟨files, _, listed, given⟩ := Discovery.classes_listed tree folder
  obtain ⟨filesAgain, _, listedAgain, givenAgain⟩ := Discovery.classes_listed last folder
  rw [known] at given
  rw [knownAgain] at givenAgain
  cases given
  cases givenAgain
  refine List.map_subset _ fun file member => ?_
  exact (listed file).mpr (touches.class_file_again plain folder file ((listedAgain file).mp member))

end Stages

section Missing

variable {verification : Verification} {tree : FileTree}

theorem read_pair_missing (pair : String × String) (path : String)
    (read : verification.readPair tree pair = .error (.missingArtifact path)) : ¬ verification.PairedAt tree pair := by
  simp only [readPair, bind, Except.bind] at read
  split at read
  · next cause reading =>
      obtain ⟨_, rfl⟩ := accessing_access _ cause reading
      cases read
  · next disassembly reads =>
      have first := read_lines_present tree _ disassembly ((accessing_ok_iff _ _).mp reads)
      cases disassembly with
      | none => cases read
      | some lines =>
          simp only at read
          split at read
          · next cause reading =>
              obtain ⟨_, rfl⟩ := accessing_access _ cause reading
              cases read
          · next listing readsToo =>
              have second := read_lines_present tree _ listing ((accessing_ok_iff _ _).mp readsToo)
              cases listing with
              | some listing => cases read
              | none =>
                  rw [PairedAt, artifactsOf, ← first, ← second]
                  simp

theorem prepare_not_missing (progress reached : Progress) (path : String) :
    (verification.prepare .plain).run progress ≠ (.error (.missingArtifact path), reached) := by
  intro failed
  cases valid : verification.patterns with
  | error bad =>
      rw [prepare_phases, Job.run_bind, Job.run_ask, valid] at failed
      cases failed
  | ok patterns =>
      rcases prepare_plan verification patterns progress valid with
        ⟨error, failedAt, ran⟩ | ⟨found, known, acts, failure, last, result, listed, plan, ran, gives⟩
      · rw [ran] at failed
        cases failed
      · rw [ran] at failed
        cases failed
        cases failure with
        | some error => cases gives
        | none => rcases gives with same | ⟨nothing, same⟩ <;> cases same

-- A run over what is there does not miss a text where the texts that it finds are paired.
theorem paired_run_complete (keepsExtracted : verification.options.skipExtract = true)
    (keepsWritten : verification.options.skipDisassemble = true) (now path : String)
    (paired : ∀ versions classes, verification.Finds tree versions classes → verification.Paired tree versions classes) :
    (verification.run now tree).1 ≠ .error (.missingArtifact path) := by
  intro failed
  rw [run_eq] at failed
  cases prepared : (verification.prepare .plain).run ⟨tree, [], []⟩ with
  | mk result reached =>
      rw [prepared] at failed
      cases result with
      | error error =>
          cases failed
          exact prepare_not_missing _ _ _ prepared
      | ok found =>
          obtain ⟨versions, classes⟩ := found
          obtain ⟨finds, done⟩ := (prepare_run_iff verification keepsExtracted versions classes _ _).mp prepared
          rw [disassembling, if_pos keepsWritten] at done
          obtain ⟨_, rfl⟩ := (Job.pure_ok_iff _ _ _ _).mp done
          obtain ⟨pair, member, read⟩ := verification.compare_classes_error now versions classes _ _ failed
          exact read_pair_missing pair path read (paired versions classes finds pair member)

end Missing

structure Resumes (verification later : Verification) : Prop where
  sameRoot : later.root = verification.root
  sameConfig : later.config = verification.config
  sameLibrary : later.tools.library = verification.tools.library
  keepsExtracted : later.options.skipExtract = true
  keepsWritten : later.options.skipDisassemble = true

theorem Touches.found_again {verification later : Verification} {tree last : FileTree} {slots : List (String × String)}
    (touches : verification.Touches slots tree last) (plain : tree.Plain) (resumes : verification.Resumes later)
    (versions classes known knownClasses : List String) (finds : verification.Finds tree versions classes)
    (findsAgain : later.Finds last known knownClasses) : known = versions ∧ knownClasses ⊆ classes := by
  obtain ⟨patterns, first, valid, leads, listed, found, _⟩ := finds
  obtain ⟨patternsAgain, firstAgain, validAgain, leadsAgain, listedAgain, foundAgain, _⟩ := findsAgain
  rw [Verification.patterns, resumes.sameConfig, resumes.sameLibrary, ← Verification.patterns, valid] at validAgain
  cases validAgain
  rw [resumes.sameRoot] at listedAgain
  obtain rfl := touches.versions_again plain _ _ _ _ listed listedAgain
  rw [leads] at leadsAgain
  cases leadsAgain
  rw [resumes.sameRoot, resumes.sameConfig] at foundAgain
  exact ⟨rfl, touches.classes_again plain _ _ _ found foundAgain⟩

-- The file operations go through, and the disassembler may fail at any of the pairs.
theorem artifacts_stay_paired (verification : Verification) (versions classes : List String) (progress left : Progress)
    (result : Except RunError Unit) (plain : progress.tree.Plain) (reads : ReadsOnly verification.tools)
    (finds : verification.Finds progress.tree versions classes)
    (apart : ∀ version ∈ versions, (classes.flatMap fun className =>
      [(verification.artifactsOf version className).disassembly,
        (verification.artifactsOf version className).signatures]).Nodup)
    (paired : verification.Paired progress.tree versions classes)
    (disassembled : (verification.disassemblePairs (pairs versions classes)).run progress = (result, left))
    (accessible : ∀ error, result ≠ .error (.access error)) :
    verification.Paired left.tree versions classes ∧
      (result = .ok () ∨ ∃ done failing rest error, pairs versions classes = done ++ failing :: rest ∧
        result = .error (.tool error) ∧ verification.StopsAt progress.tree left.tree failing rest error) ∧
      ∀ later, verification.Resumes later → ∀ now path,
        (later.run now left.tree).1 ≠ .error (.missingArtifact path) := by
  have ⟨patterns, first, _, _, listed, known, _⟩ := finds
  obtain ⟨rooted, distinct, versionsNamed⟩ :=
    Discovery.versions_named plain verification.root patterns.version versions listed
  have classesNamed := Discovery.classes_named plain _ classes known
  have named : ∀ pair ∈ pairs versions classes, Path.IsName pair.1 ∧ '/' ∉ pair.2.toList := by
    rintro ⟨version, className⟩ member
    obtain ⟨isVersion, isClass⟩ := (mem_pairs_iff versions classes version className).mp member
    exact ⟨versionsNamed version isVersion, classesNamed className isClass⟩
  rcases disassemble_pairs_follow verification patterns.archive (pairs versions classes) progress with
    ⟨error, reached, failed⟩ | ⟨acts, failure, last, steps, ran⟩
  · rw [failed] at disassembled
    cases disassembled
    exact absurd rfl (accessible error)
  rw [ran] at disassembled
  cases disassembled
  obtain ⟨touches, stays, stops⟩ := steps_leave_paired rooted reads (pairs versions classes) plain named
    (slots_apart verification versions classes distinct apart) paired steps
  refine ⟨stays, ?_, fun later resumes now path => ?_⟩
  · cases failure with
    | none => exact .inl rfl
    | some error =>
        obtain ⟨done, failing, rest, split, stopsAt⟩ := stops error rfl
        exact .inr ⟨done, failing, rest, error, split, rfl, stopsAt⟩
  · refine paired_run_complete resumes.keepsExtracted resumes.keepsWritten now path ?_
    rintro known knownClasses findsAgain ⟨version, className⟩ member
    obtain ⟨rfl, fewer⟩ := touches.found_again plain resumes versions classes known knownClasses finds findsAgain
    obtain ⟨isVersion, isClass⟩ := (mem_pairs_iff known knownClasses version className).mp member
    have stillPaired := stays (version, className)
      ((mem_pairs_iff known classes version className).mpr ⟨isVersion, fewer isClass⟩)
    rw [PairedAt, artifactsOf] at stillPaired ⊢
    rw [resumes.sameRoot]
    exact stillPaired

end Verification

def interruptedVerification : Verification :=
  { disassemblingVerification with
    tools := ⟨fun _ _ tree => (.ok (), tree), fun folder classFile tree =>
      (if folder = "/r/2" then .error (.noOutput "javap" classFile) else .ok ⟨"  m();", "  m();"⟩, tree), "tar",
      Pattern.library⟩ }

theorem leftover_plain : leftoverTree.Plain where
  distinct := leftover_formed.distinct
  placed := leftover_formed.placed
  linkless := by simp [FileTree.Linkless, leftoverTree, Entry.ofText]
  named := by decide

set_option maxRecDepth 10000 in
theorem artifacts_stay_paired_interrupted :
    ∃ result left,
      (interruptedVerification.disassemblePairs (Verification.pairs ["1", "2", "3"] ["A"])).run ⟨leftoverTree, [], []⟩ =
        (result, left) ∧
      result = .error (.tool (.noOutput "javap" "c/A.class")) ∧
      left.tree.isPresent "/r/1/bytecode_1_A.txt" = true ∧ left.tree.isPresent "/r/2/bytecode_2_A.txt" = false ∧
      left.tree.isPresent "/r/3/bytecode_3_A_methods.txt" = true ∧
      interruptedVerification.Paired left.tree ["1", "2", "3"] ["A"] ∧
      ∀ now path, ((interruptedVerification.replaying brokenTools).run now left.tree).1 ≠
        .error (.missingArtifact path) := by
  have found : (((interruptedVerification.replaying brokenTools).prepare .plain).run ⟨leftoverTree, [], []⟩).1.toOption =
      some (["1", "2", "3"], ["A"]) := by
    decide +kernel
  have finds : interruptedVerification.Finds leftoverTree ["1", "2", "3"] ["A"] := by
    generalize prepared :
      ((interruptedVerification.replaying brokenTools).prepare .plain).run ⟨leftoverTree, [], []⟩ = outcome at found
    obtain ⟨result, reached⟩ := outcome
    cases result with
    | error error => cases found
    | ok pair =>
        cases found
        exact ((Verification.prepare_run_iff (interruptedVerification.replaying brokenTools) rfl ["1", "2", "3"] ["A"]
          ⟨leftoverTree, [], []⟩ reached).mp prepared).1
  have paired : interruptedVerification.Paired leftoverTree ["1", "2", "3"] ["A"] := by
    decide +kernel
  have observed :
      ((interruptedVerification.disassemblePairs (Verification.pairs ["1", "2", "3"] ["A"])).run
        ⟨leftoverTree, [], []⟩).1 = .error (.tool (.noOutput "javap" "c/A.class")) ∧
      ["/r/1/bytecode_1_A.txt", "/r/2/bytecode_2_A.txt", "/r/3/bytecode_3_A_methods.txt"].map
        ((interruptedVerification.disassemblePairs (Verification.pairs ["1", "2", "3"] ["A"])).run
          ⟨leftoverTree, [], []⟩).2.tree.isPresent = [true, false, true] := by
    decide +kernel
  generalize ran : (interruptedVerification.disassemblePairs (Verification.pairs ["1", "2", "3"] ["A"])).run
    ⟨leftoverTree, [], []⟩ = outcome at observed
  obtain ⟨result, left⟩ := outcome
  obtain ⟨rfl, present⟩ := observed
  simp only [List.map_cons, List.map_nil, List.cons.injEq, and_true] at present
  obtain ⟨first, second, third⟩ := present
  obtain ⟨stays, _, complete⟩ := Verification.artifacts_stay_paired interruptedVerification ["1", "2", "3"] ["A"]
    ⟨leftoverTree, [], []⟩ left _ leftover_plain (fun _ _ _ => rfl) finds (by decide) paired ran (by simp)
  have resumes : interruptedVerification.Resumes (interruptedVerification.replaying brokenTools) :=
    ⟨rfl, rfl, rfl, rfl, rfl⟩
  exact ⟨_, left, rfl, rfl, first, second, third, stays, complete _ resumes⟩

end BytecodeParity
