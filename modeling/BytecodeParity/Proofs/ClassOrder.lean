import BytecodeParity.Proofs.ByteOrder
import BytecodeParity.Proofs.CallPlan
import BytecodeParity.Proofs.HaltedRun
import BytecodeParity.Proofs.PlainTree
import BytecodeParity.Proofs.SuccessCoverage

/-!
The order of the classes. Files are sorted by their whole names, and the ending of class files is taken away
afterwards. That is the order of the classes' names unless the file of a class comes before that of another
class whose name it continues; it does so only with a character that is not above the dot of the ending. A run
goes through the classes in the order in which they are discovered.
-/

set_option autoImplicit false

namespace BytecodeParity

namespace Text

theorem append_chars_lt {cs ds : List Char} (less : cs < ds) (parts : ¬ cs <+: ds) (after behind : List Char) :
    cs ++ after < ds ++ behind := by
  induction cs generalizing ds with
  | nil => exact absurd List.nil_prefix parts
  | cons c cs ih =>
      cases ds with
      | nil => cases less
      | cons d ds =>
          rw [List.cons_append, List.cons_append, List.cons_lt_cons_iff]
          rcases List.cons_lt_cons_iff.mp less with earlier | ⟨rfl, rest⟩
          · exact .inl earlier
          · exact .inr ⟨rfl, ih rest fun leads => parts ((List.prefix_cons_inj c).mpr leads)⟩

theorem behind_chars_lt {front after behind : List Char} (less : front ++ after < front ++ behind) :
    after < behind := by
  induction front with
  | nil => exact less
  | cons c front ih =>
      rcases List.cons_lt_cons_iff.mp less with earlier | ⟨_, rest⟩
      · exact absurd earlier (lt_irrefl c)
      · exact ih rest

theorem chars_lt_longer {cs more : List Char} (goesOn : more ≠ []) : cs < cs ++ more := by
  cases more with
  | nil => exact absurd rfl goesOn
  | cons c rest =>
      have longer : cs ++ [] < cs ++ c :: rest := List.append_left_lt (List.nil_lt_cons c rest)
      rwa [List.append_nil] at longer

-- In the order of the bytes; a text may come more than once.
def Ascending (texts : List String) : Prop :=
  texts.Pairwise fun text later => bytes text ≤ bytes later

instance decidableAscending (texts : List String) : Decidable (Ascending texts) :=
  inferInstanceAs (Decidable (List.Pairwise _ texts))

theorem ascending_iff (texts : List String) : Ascending texts ↔ texts.Pairwise (· ≤ ·) :=
  List.Pairwise.iff fun text later => not_congr (bytes_lt_iff later text)

end Text

namespace Discovery

def IsClassFile (tree : FileTree) (folder : String) : String → Prop :=
  Lists tree folder fun name entry => entry.isFile && classSuffix.isSuffixOf name.toList

structure Overtakes (file later : String) : Prop where
  before : file < later
  leads : (classOfFileName later).toList <+: (classOfFileName file).toList
  proper : classOfFileName later ≠ classOfFileName file

section Endings

theorem stripped_ending (count : Nat) (cs : List Char) :
    ∃ times, cs = stripSuffix count cs ++ (List.replicate times classSuffix).flatten ∧
      (count ≠ 0 → classSuffix.isSuffixOf cs → times ≠ 0) := by
  induction count generalizing cs with
  | zero => exact ⟨0, by simp [stripSuffix], fun none => absurd rfl none⟩
  | succ count ih =>
      rw [stripSuffix]
      split
      · next isSuffix =>
          obtain ⟨front, rfl⟩ := List.isSuffixOf_iff_suffix.mp isSuffix
          have shorter : (front ++ classSuffix).take ((front ++ classSuffix).length - classSuffix.length) = front := by
            rw [List.length_append, Nat.add_sub_cancel, List.take_left]
          obtain ⟨times, spelled, _⟩ := ih front
          refine ⟨times + 1, ?_, fun _ _ => Nat.succ_ne_zero times⟩
          rw [shorter, List.replicate_succ', List.flatten_append, ← List.append_assoc, ← spelled]
          simp
      · next other => exact ⟨0, by simp, fun _ isSuffix => absurd isSuffix other⟩

theorem class_file_spelled (file : String) (isSuffix : classSuffix.isSuffixOf file.toList) :
    ∃ times, file.toList = (classOfFileName file).toList ++ (List.replicate (times + 1) classSuffix).flatten := by
  obtain ⟨times, spelled, marked⟩ := stripped_ending file.toList.length file.toList
  have long := (List.isSuffixOf_iff_suffix.mp isSuffix).length_le
  have named : (classOfFileName file).toList = stripSuffix file.toList.length file.toList := by
    rw [classOfFileName, String.toList_ofList]
  rw [named]
  cases times with
  | zero =>
      refine absurd rfl (marked (fun short => ?_) isSuffix)
      rw [short] at long
      exact absurd long (by decide)
  | succ times => exact ⟨times, spelled⟩

theorem class_file_dotted (file : String) (isSuffix : classSuffix.isSuffixOf file.toList) :
    ∃ behind, file.toList = (classOfFileName file).toList ++ '.' :: behind := by
  obtain ⟨times, spelled⟩ := class_file_spelled file isSuffix
  exact ⟨_, spelled⟩

-- What goes on behind the name of the other class begins with a character that is not above the dot.
theorem Overtakes.continued {file later : String} (overtakes : Overtakes file later)
    (isSuffix : classSuffix.isSuffixOf later.toList) :
    ∃ c rest, (classOfFileName file).toList = (classOfFileName later).toList ++ c :: rest ∧ c ≤ '.' := by
  obtain ⟨behind, dotted⟩ := class_file_dotted later isSuffix
  obtain ⟨more, spelled⟩ := overtakes.leads
  obtain ⟨after, longer⟩ := class_leads file
  have less : file.toList < later.toList := overtakes.before
  rw [dotted, ← longer, ← spelled, List.append_assoc] at less
  have order := Text.behind_chars_lt less
  cases more with
  | nil => exact absurd (String.toList_injective (by simpa using spelled)) overtakes.proper
  | cons c rest =>
      refine ⟨c, rest, spelled.symm, ?_⟩
      rcases List.cons_lt_cons_iff.mp order with below | ⟨rfl, _⟩
      · exact le_of_lt below
      · exact le_refl _

theorem class_names_le_iff {file later : String} (before : file ≤ later) :
    classOfFileName file ≤ classOfFileName later ↔ ¬ Overtakes file later := by
  constructor
  · intro ordered overtakes
    obtain ⟨more, spelled⟩ := overtakes.leads
    have nonempty : more ≠ [] := by
      rintro rfl
      exact overtakes.proper (String.toList_injective (by simpa using spelled))
    refine absurd ordered (not_le_of_gt ?_)
    change (classOfFileName later).toList < (classOfFileName file).toList
    rw [← spelled]
    exact Text.chars_lt_longer nonempty
  · intro orderly
    refine le_of_not_gt fun (after : (classOfFileName later).toList < (classOfFileName file).toList) => ?_
    have parts : ¬ (classOfFileName later).toList <+: (classOfFileName file).toList := by
      intro leads
      refine orderly ⟨lt_of_le_of_ne before ?_, leads, ?_⟩
      · rintro rfl
        exact lt_irrefl _ after
      · intro same
        rw [same] at after
        exact lt_irrefl _ after
    obtain ⟨behind, spelled⟩ := class_leads file
    obtain ⟨behindLater, spelledLater⟩ := class_leads later
    have less := Text.append_chars_lt after parts behindLater behind
    rw [spelled, spelledLater] at less
    exact absurd before (not_le_of_gt less)

end Endings

section Order

theorem is_folder_iff (tree : FileTree) (folder : String) :
    tree.isFolder folder ↔ ∃ entries, tree.readFolder folder = .ok entries := by
  rw [FileTree.isFolder, FileTree.readFolder]
  cases tree.locate true folder with
  | error cause => simp
  | ok found =>
      obtain ⟨location, entry⟩ := found
      cases entry <;> simp [Entry.isFolder]

theorem classes_from_names (tree : FileTree) (folder : String) :
    ∃ files : List String,
      (sortedNames tree folder (fun name entry => entry.isFile && classSuffix.isSuffixOf name.toList) = .ok files ∨
        files = []) ∧
      (∀ file, file ∈ files ↔ IsClassFile tree folder file) ∧
      classes tree folder = .ok (files.map classOfFileName) := by
  rw [classes_eq]
  split
  · next isFolder =>
      obtain ⟨entries, read⟩ := (is_folder_iff tree folder).mp isFolder
      have listed : sortedNames tree folder (fun name entry => entry.isFile && classSuffix.isSuffixOf name.toList) =
          .ok _ := sorted_names_ok_iff.mpr ⟨entries, read, rfl⟩
      exact ⟨_, .inl listed, mem_sorted_names_iff listed, by rw [listed]; rfl⟩
  · next noFolder =>
      refine ⟨[], .inr rfl, fun file => iff_of_false List.not_mem_nil ?_, rfl⟩
      rintro ⟨entries, read, _⟩
      exact noFolder ((is_folder_iff tree folder).mpr ⟨entries, read⟩)

theorem classes_listed (tree : FileTree) (folder : String) :
    ∃ files : List String, files.Pairwise (· ≤ ·) ∧ (∀ file, file ∈ files ↔ IsClassFile tree folder file) ∧
      classes tree folder = .ok (files.map classOfFileName) := by
  obtain ⟨files, listed | rfl, known, given⟩ := classes_from_names tree folder
  · exact ⟨files, sorted_names_ascending listed, known, given⟩
  · exact ⟨[], .nil, known, given⟩

theorem classes_listed_once (tree : FileTree) (distinct : (tree.entries.map (·.1)).Nodup) (folder : String) :
    ∃ files : List String, files.Nodup ∧ (∀ file, file ∈ files ↔ IsClassFile tree folder file) ∧
      classes tree folder = .ok (files.map classOfFileName) := by
  obtain ⟨files, listed | rfl, known, given⟩ := classes_from_names tree folder
  · exact ⟨files, (sorted_names_strict distinct listed).imp ne_of_lt, known, given⟩
  · exact ⟨[], .nil, known, given⟩

theorem classes_ascending {files : List String} (ascending : files.Pairwise (· ≤ ·)) :
    (files.map classOfFileName).Pairwise (· ≤ ·) ↔ ∀ file ∈ files, ∀ later ∈ files, ¬ Overtakes file later := by
  rw [List.pairwise_map]
  constructor
  · intro ordered
    let inOrder (file later : String) : Prop :=
      (file < later → classOfFileName file ≤ classOfFileName later) ∧
        (later < file → classOfFileName later ≤ classOfFileName file)
    have pairs : files.Pairwise inOrder :=
      (ascending.and ordered).imp fun both => ⟨fun _ => both.2, fun less => absurd both.1 (not_le_of_gt less)⟩
    have : Std.Symm inOrder := ⟨fun _ _ both => both.symm⟩
    have all := pairs.forall_of_forall fun file _ => ⟨fun _ => le_refl _, fun _ => le_refl _⟩
    intro file isFile later isLater overtakes
    exact (class_names_le_iff (le_of_lt overtakes.before)).mp ((all isFile isLater).1 overtakes.before) overtakes
  · intro orderly
    exact ascending.imp_of_mem fun isFile isLater before =>
      (class_names_le_iff before).mpr (orderly _ isFile _ isLater)

end Order

end Discovery

namespace Session

theorem enroll_all (names : List (Option String)) : names.foldl enroll [] = names.eraseDups := by
  induction names using List.reverseRecOn with
  | nil => rfl
  | append_singleton names name ih =>
      rw [List.foldl_append, List.foldl_cons, List.foldl_nil, ih, enroll, erase_dups_concat]
      simp only [List.mem_eraseDups, List.contains_iff_mem]

section Names

variable {ε α : Type} {className : α → Option String} {read : α → Except ε Reading}

theorem announced_eq (faithful : Faithful className read) (inputs : List α) :
    announced read inputs = (inputs.filter fun input => processed (read input)).map className := by
  induction inputs with
  | nil => rfl
  | cons input inputs ih =>
      rw [announced_cons, ih, List.filter_cons, ← (event_parts (read input)).2.2]
      cases brings : event? (read input) with
      | none => rfl
      | some event =>
          rw [Option.map_some, (faithful_event className read faithful input event brings).1]
          rfl

end Names

end Session

namespace Verification

section Runs

variable (verification : Verification) (now : String) (tree : FileTree)

-- The run of a report takes the classes in the order in which it has discovered them in the extracted tree, and
-- it reports each class where the first of its outcomes came.
structure RunsThrough (report : Report) (classes : List String) : Prop where
  stages : ∃ patterns extracted first later, verification.patterns = .ok patterns ∧
    Steps verification patterns.archive (verification.extractions report.versions) tree first none extracted ∧
    (∀ version ∈ report.versions.head?, Discovery.classes extracted
      (Layout.classesDir verification.root version verification.config.classesDir) = .ok classes) ∧
    Steps verification patterns.archive (verification.disassemblies report.versions classes) extracted later none
      (verification.run now tree).2.tree ∧
    (verification.run now tree).2.calls = (first ++ later).filterMap Act.call?
  reported : report.classes.map (·.className) = (((pairs report.versions classes).filter fun pair =>
    Session.processed (verification.readPair (verification.run now tree).2.tree pair)).map
      fun pair => some pair.2).eraseDups

theorem runs_through (report : Report) (reported : (verification.run now tree).1 = .ok report) :
    ∃ classes, verification.RunsThrough now tree report classes := by
  obtain ⟨versions, classes, reached, last, prepared, done, rfl⟩ := (run_ok_iff _ _ _ _).mp reported
  obtain ⟨patterns, acts, valid, _, plan, progress⟩ :=
    prepared_plan verification ⟨tree, [], []⟩ reached versions classes prepared
  have sameTree := run_tree verification now tree reached _ prepared
  have called : (verification.run now tree).2.calls = acts.filterMap Act.call? := by
    rw [run_calls verification now tree reached _ prepared, progress]
    exact List.nil_append _
  refine ⟨classes, ?_, ?_⟩
  · rw [called, sameTree]
    generalize reached.tree = left at plan
    cases plan with
    | nothing =>
        refine ⟨patterns, tree, [], [], valid, extractions_nil verification ▸ .done, by simp, ?_, rfl⟩
        exact disassemblies_nil verification _ ▸ .done
    | @through _ _ _ first later _ _ _ extracting found disassembling =>
        refine ⟨patterns, _, first, later, valid, extracting, by simpa using found, disassembling, ?_⟩
        simp [List.filterMap_cons, Act.call?]
  · have faithful := read_pair_faithful verification reached.tree
    rw [sameTree, Session.compare_names faithful _ _ last (Session.start_valid _) done,
      Session.announced_eq faithful]
    exact Session.enroll_all _

end Runs

end Verification

-- Discovery gives the classes of the class files in the order of the files' names. That is the order of the
-- classes' names just when no file overtakes another one, which takes a class that continues the name of another
-- one with a character not above the dot. A run goes through the classes in the order discovered.
theorem classes_ascending_iff (tree : FileTree) (folder : String) :
    (∃ files : List String, Text.Ascending files ∧ (∀ file, file ∈ files ↔ Discovery.IsClassFile tree folder file) ∧
      Discovery.classes tree folder = .ok (files.map Discovery.classOfFileName)) ∧
    (∀ found, Discovery.classes tree folder = .ok found →
      (Text.Ascending found ↔ ∀ file later, Discovery.IsClassFile tree folder file →
        Discovery.IsClassFile tree folder later → ¬ Discovery.Overtakes file later)) ∧
    (∀ file later, Discovery.IsClassFile tree folder later → Discovery.Overtakes file later →
      ∃ c rest, (Discovery.classOfFileName file).toList = (Discovery.classOfFileName later).toList ++ c :: rest ∧
        c ≤ '.') ∧
    ∀ (verification : Verification) (now : String) (report : Report),
      (verification.run now tree).1 = .ok report → ∃ classes, verification.RunsThrough now tree report classes := by
  obtain ⟨files, ascending, listed, given⟩ := Discovery.classes_listed tree folder
  refine ⟨⟨files, (Text.ascending_iff files).mpr ascending, listed, given⟩, fun found same => ?_,
    fun file later isLater overtakes => ?_,
    fun verification now report reported => verification.runs_through now tree report reported⟩
  · obtain rfl : files.map Discovery.classOfFileName = found := Except.ok.inj (given.symm.trans same)
    rw [Text.ascending_iff, Discovery.classes_ascending ascending]
    simp only [listed]
    exact ⟨fun orderly file later isFile isLater => orderly file isFile later isLater,
      fun orderly file isFile later isLater => orderly file later isFile isLater⟩
  · obtain ⟨entries, _, entry, _, kept⟩ := isLater
    exact overtakes.continued (Bool.and_eq_true_iff.mp kept).2

def innerTree : FileTree :=
  ⟨[(["r"], .folder), (["r", "1"], .folder), (["r", "1", "c"], .folder), (["r", "1", "c", "A.class"], .ofText ""),
    (["r", "1", "c", "A$1.class"], .ofText ""), (["r", "1", "bytecode_1_A.txt"], .ofText "  m();"),
    (["r", "1", "bytecode_1_A_methods.txt"], .ofText "  m();"), (["r", "1", "bytecode_1_A$1.txt"], .ofText "  m();"),
    (["r", "1", "bytecode_1_A$1_methods.txt"], .ofText "  m();")], []⟩

def innerReport : Report :=
  ⟨"noon", .perClass, ["1"], [⟨some "A$1", ["1"], [], [], false⟩, ⟨some "A", ["1"], [], [], false⟩]⟩

set_option maxRecDepth 10000 in
theorem classes_ascending_inner :
    Discovery.Overtakes "A$1.class" "A.class" ∧ ¬ Text.Ascending ["A$1", "A"] ∧
      (∃ c rest, (Discovery.classOfFileName "A$1.class").toList =
        (Discovery.classOfFileName "A.class").toList ++ c :: rest ∧ c ≤ '.') ∧
      (returningVerification.run "noon" innerTree).1 = .ok innerReport ∧
      ∃ classes, returningVerification.RunsThrough "noon" innerTree innerReport classes := by
  have listed : innerTree.readFolder "/r/1/c" = .ok [("A.class", .ofText ""), ("A$1.class", .ofText "")] := by
    decide +kernel
  have isOuter : Discovery.IsClassFile innerTree "/r/1/c" "A.class" := ⟨_, listed, .ofText "", by simp, by decide⟩
  have isInner : Discovery.IsClassFile innerTree "/r/1/c" "A$1.class" := ⟨_, listed, .ofText "", by simp, by decide⟩
  have overtakes : Discovery.Overtakes "A$1.class" "A.class" := ⟨by decide, by decide, by decide⟩
  have found : Discovery.classes innerTree "/r/1/c" = .ok ["A$1", "A"] := by decide +kernel
  have reported : (returningVerification.run "noon" innerTree).1 = .ok innerReport := by decide +kernel
  obtain ⟨_, ordered, continues, runs⟩ := classes_ascending_iff innerTree "/r/1/c"
  exact ⟨overtakes, fun ascending => (ordered _ found).mp ascending _ _ isInner isOuter overtakes,
    continues _ _ isOuter overtakes, reported, runs returningVerification "noon" innerReport reported⟩

set_option maxRecDepth 10000 in
theorem inner_class_first :
    Discovery.classes innerTree "/r/1/c" = .ok ["A$1", "A"] ∧ ¬ Text.Ascending ["A$1", "A"] ∧
      ((returningVerification.run "noon" innerTree).1.toOption.map fun report => report.classes.map (·.className)) =
        some [some "A$1", some "A"] := by
  decide +kernel

end BytecodeParity
