import BytecodeParity.Proofs.ClassOrder

/-!
The files that the classes stand for. The ending of class files is taken away as often as it stands at the
end of a file's name, and put back once where the file is looked for. So the two undo each other only for
names that have the ending once, and with others a class can come twice, or without a file of its own.
-/

set_option autoImplicit false

namespace BytecodeParity

namespace Discovery

def Doubled (file : String) : Prop :=
  classSuffix ++ classSuffix <:+ file.toList

instance decidableDoubled (file : String) : Decidable (Doubled file) :=
  inferInstanceAs (Decidable (_ <:+ _))

section Endings

theorem endings_succ (times : Nat) :
    (List.replicate (times + 1) classSuffix).flatten = (List.replicate times classSuffix).flatten ++ classSuffix := by
  rw [List.replicate_succ', List.flatten_append, List.flatten_singleton]

theorem stripped_bare (count : Nat) (cs : List Char) (long : cs.length ≤ count) :
    ¬ classSuffix <:+ stripSuffix count cs := by
  induction count generalizing cs with
  | zero =>
      intro isSuffix
      have short := isSuffix.length_le.trans long
      exact absurd short (by decide)
  | succ count ih =>
      rw [stripSuffix]
      split
      · have shorter : (cs.take (cs.length - classSuffix.length)).length ≤ count := by
          have letters : classSuffix.length = 6 := rfl
          rw [List.length_take]
          omega
        exact ih _ shorter
      · next other => exact fun isSuffix => other (List.isSuffixOf_iff_suffix.mpr isSuffix)

theorem class_name_bare (file : String) : ¬ classSuffix <:+ (classOfFileName file).toList := by
  rw [classOfFileName, String.toList_ofList]
  exact stripped_bare _ _ (le_refl _)

-- Names that do not have the ending themselves are told apart however often it stands behind them.
theorem bare_names_eq {cs ds : List Char} (bare : ¬ classSuffix <:+ cs) (otherBare : ¬ classSuffix <:+ ds)
    (times others : Nat)
    (same : cs ++ (List.replicate times classSuffix).flatten = ds ++ (List.replicate others classSuffix).flatten) :
    cs = ds := by
  induction times generalizing others with
  | zero =>
      rw [List.replicate_zero, List.flatten_nil, List.append_nil] at same
      cases others with
      | zero => simpa using same
      | succ others =>
          rw [endings_succ, ← List.append_assoc] at same
          exact absurd ⟨_, same.symm⟩ bare
  | succ times ih =>
      rw [endings_succ, ← List.append_assoc] at same
      cases others with
      | zero =>
          rw [List.replicate_zero, List.flatten_nil, List.append_nil] at same
          exact absurd ⟨_, same⟩ otherBare
      | succ others =>
          rw [endings_succ, ← List.append_assoc] at same
          exact ih others (List.append_cancel_right same)

theorem class_of_file_iff (file className : String) (isSuffix : classSuffix.isSuffixOf file.toList) :
    classOfFileName file = className ↔ ¬ classSuffix <:+ className.toList ∧
      ∃ times, file.toList = className.toList ++ (List.replicate (times + 1) classSuffix).flatten := by
  obtain ⟨times, spelled⟩ := class_file_spelled file isSuffix
  constructor
  · rintro rfl
    exact ⟨class_name_bare file, times, spelled⟩
  · rintro ⟨bare, others, otherwise⟩
    exact String.toList_injective
      (bare_names_eq (class_name_bare file) bare _ _ (spelled.symm.trans otherwise))

theorem class_file_name_chars (className : String) :
    (Layout.classFileName className).toList = className.toList ++ classSuffix :=
  String.toList_append

theorem class_file_name_ends (className : String) :
    classSuffix.isSuffixOf (Layout.classFileName className).toList := by
  rw [List.isSuffixOf_iff_suffix, class_file_name_chars]
  exact List.suffix_append _ _

theorem doubled_class_file_name_iff (className : String) :
    Doubled (Layout.classFileName className) ↔ classSuffix <:+ className.toList := by
  rw [Doubled, class_file_name_chars]
  constructor
  · rintro ⟨front, spelled⟩
    rw [← List.append_assoc] at spelled
    exact ⟨front, List.append_cancel_right spelled⟩
  · rintro ⟨front, spelled⟩
    exact ⟨front, by rw [← spelled, List.append_assoc]⟩

theorem class_file_name_back_iff (file : String) (isSuffix : classSuffix.isSuffixOf file.toList) :
    Layout.classFileName (classOfFileName file) = file ↔ ¬ Doubled file := by
  constructor
  · intro same doubled
    rw [← same, doubled_class_file_name_iff] at doubled
    exact class_name_bare file doubled
  · intro single
    obtain ⟨times, spelled⟩ := class_file_spelled file isSuffix
    apply String.toList_injective
    rw [class_file_name_chars, spelled]
    cases times with
    | zero => simp
    | succ times =>
        refine absurd ?_ single
        rw [Doubled, spelled, endings_succ, endings_succ, List.append_assoc, ← List.append_assoc]
        exact List.suffix_append _ _

theorem class_of_class_file_name (className : String) (bare : ¬ classSuffix <:+ className.toList) :
    classOfFileName (Layout.classFileName className) = className := by
  rw [class_of_file_iff _ _ (class_file_name_ends className)]
  exact ⟨bare, 0, by simp [class_file_name_chars]⟩

end Endings

structure MatchesFiles (tree : FileTree) (folder : String) (found : List String) : Prop where
  once : ∀ className, IsClassFile tree folder (Layout.classFileName className) → found.count className = 1
  filed : ∀ className ∈ found, IsClassFile tree folder (Layout.classFileName className)

theorem MatchesFiles.distinct {tree : FileTree} {folder : String} {found : List String}
    (matching : MatchesFiles tree folder found) : found.Nodup :=
  List.nodup_iff_count_eq_one.mpr fun className member => matching.once className (matching.filed className member)

theorem IsClassFile.ends {tree : FileTree} {folder file : String} (isFile : IsClassFile tree folder file) :
    classSuffix.isSuffixOf file.toList := by
  obtain ⟨entries, _, entry, _, kept⟩ := isFile
  exact (Bool.and_eq_true_iff.mp kept).2

section Matching

variable {tree : FileTree} {folder : String} {files : List String} (distinct : files.Nodup)
  (listed : ∀ file, file ∈ files ↔ IsClassFile tree folder file)
include distinct listed

theorem matches_files_iff :
    MatchesFiles tree folder (files.map classOfFileName) ↔ ∀ file, IsClassFile tree folder file → ¬ Doubled file := by
  constructor
  · intro matching file isFile doubled
    have isOwn := matching.filed _ (List.mem_map_of_mem ((listed file).mpr isFile))
    have back := class_of_class_file_name _ (class_name_bare file)
    -- The file that the class is looked for in is another one, and it stands for the same class.
    have other : Layout.classFileName (classOfFileName file) = file :=
      List.inj_on_of_nodup_map matching.distinct ((listed _).mpr isOwn) ((listed file).mpr isFile) back
    exact (class_file_name_back_iff file isFile.ends).mp other doubled
  · intro single
    have back : ∀ file ∈ files, Layout.classFileName (classOfFileName file) = file := fun file member =>
      have isFile := (listed file).mp member
      (class_file_name_back_iff file isFile.ends).mpr (single file isFile)
    have injective : ∀ file ∈ files, ∀ other ∈ files, classOfFileName file = classOfFileName other → file = other := by
      intro file member other otherMember same
      rw [← back file member, ← back other otherMember, same]
    refine ⟨fun className isFile => ?_, fun className member => ?_⟩
    · have named : classOfFileName (Layout.classFileName className) = className :=
        class_of_class_file_name className
          ((doubled_class_file_name_iff className).not.mp (single _ isFile))
      have member : className ∈ files.map classOfFileName :=
        List.mem_map.mpr ⟨_, (listed _).mpr isFile, named⟩
      exact List.count_eq_one_of_mem (List.Nodup.map_on injective distinct) member
    · obtain ⟨file, isListed, rfl⟩ := List.mem_map.mp member
      rw [back file isListed]
      exact (listed file).mp isListed

end Matching

end Discovery

namespace Path

theorem is_name_of_class_file (file : String) (free : '/' ∉ file.toList)
    (isSuffix : Discovery.classSuffix.isSuffixOf file.toList) : IsName file := by
  have long := (List.isSuffixOf_iff_suffix.mp isSuffix).length_le
  have longer : ∀ short : String, short.toList.length < Discovery.classSuffix.length → file ≠ short := by
    rintro short bound rfl
    omega
  exact ⟨longer "" (by decide), longer "." (by decide), longer ".." (by decide), free⟩

theorem join_name_injective {base name other : String} (isName : IsName name) (isOther : IsName other)
    (same : join base name = join base other) : name = other := by
  by_cases given : base = ""
  · subst given
    simpa only [join_empty] using same
  · rw [join_relative given isName.relative, join_relative given isOther.relative] at same
    exact String.append_right_inj _ |>.mp same

end Path

namespace Layout

theorem class_file_name_is_name (className : String) (free : '/' ∉ className.toList) :
    Path.IsName (classFileName className) := by
  refine Path.is_name_of_class_file _ ?_ (Discovery.class_file_name_ends className)
  rw [Discovery.class_file_name_chars, List.mem_append]
  exact fun slash => slash.elim free (by decide)

-- The file of a class, seen from the version folder, is the one in the folder of the version's classes: joining is
-- associative, also where the folder of the classes or the class is spelled like an absolute path, or is empty.
theorem class_file_same_either_way (root version subfolder className : String) :
    Path.join (versionDir root version) (classFile subfolder className) =
      Path.join (classesDir root version subfolder) (classFileName className) :=
  Path.join_assoc (versionDir root version) subfolder (classFileName className)

example : Path.join (versionDir "r" "1") (classFile "/c/" "A") = "/c/A.class" := by decide

theorem class_file_back_iff (root version subfolder file : String) (free : '/' ∉ file.toList)
    (isSuffix : Discovery.classSuffix.isSuffixOf file.toList) :
    Path.join (versionDir root version) (classFile subfolder (Discovery.classOfFileName file)) =
        Path.join (classesDir root version subfolder) file ↔ ¬ Discovery.Doubled file := by
  have classFree : '/' ∉ (Discovery.classOfFileName file).toList := fun slash =>
    free ((Discovery.class_leads file).subset slash)
  rw [classFile, Path.join_assoc, ← classesDir, ← Discovery.class_file_name_back_iff file isSuffix]
  constructor
  · exact Path.join_name_injective (class_file_name_is_name _ classFree) (Path.is_name_of_class_file file free isSuffix)
  · intro same
    rw [same]

end Layout

-- The classes that are found match the class files one to one just when no file has the ending twice. A file that
-- has it twice stands for a class whose file is another one, if there is one at all.
theorem classes_match_files_iff (tree : FileTree) (distinct : (tree.entries.map (·.1)).Nodup) (folder : String) :
    (∃ files : List String, files.Nodup ∧ (∀ file, file ∈ files ↔ Discovery.IsClassFile tree folder file) ∧
      Discovery.classes tree folder = .ok (files.map Discovery.classOfFileName)) ∧
    (∀ file className, Discovery.IsClassFile tree folder file →
      (Discovery.classOfFileName file = className ↔ ¬ Discovery.classSuffix <:+ className.toList ∧
        ∃ times, file.toList =
          className.toList ++ (List.replicate (times + 1) Discovery.classSuffix).flatten)) ∧
    (∀ found, Discovery.classes tree folder = .ok found →
      (Discovery.MatchesFiles tree folder found ↔
        ∀ file, Discovery.IsClassFile tree folder file → ¬ Discovery.Doubled file)) ∧
    ∀ root version subfolder file, folder = Layout.classesDir root version subfolder →
      Discovery.IsClassFile tree folder file → '/' ∉ file.toList →
        (Path.join (Layout.versionDir root version) (Layout.classFile subfolder (Discovery.classOfFileName file)) =
          Path.join folder file ↔ ¬ Discovery.Doubled file) := by
  obtain ⟨files, once, listed, given⟩ := Discovery.classes_listed_once tree distinct folder
  refine ⟨⟨files, once, listed, given⟩, fun file className isFile => Discovery.class_of_file_iff _ _ isFile.ends,
    fun found same => ?_, ?_⟩
  · obtain rfl : files.map Discovery.classOfFileName = found := Except.ok.inj (given.symm.trans same)
    exact Discovery.matches_files_iff once listed
  · rintro root version subfolder file rfl isFile free
    exact Layout.class_file_back_iff root version subfolder file free isFile.ends

def singleTree : FileTree :=
  ⟨[(["r"], .folder), (["r", "1"], .folder), (["r", "1", "c"], .folder), (["r", "1", "c", "A.class"], .ofText ""),
    (["r", "1", "c", ".class"], .ofText "")], []⟩

set_option maxRecDepth 10000 in
theorem classes_match_files_single :
    (singleTree.entries.map (·.1)).Nodup ∧
      Discovery.classes singleTree "/r/1/c" = .ok ["", "A"] ∧
      Discovery.MatchesFiles singleTree "/r/1/c" ["", "A"] ∧
      Path.join (Layout.versionDir "/r" "1") (Layout.classFile "c" (Discovery.classOfFileName "A.class")) =
        Path.join "/r/1/c" "A.class" := by
  have distinct : (singleTree.entries.map (·.1)).Nodup := by decide
  have found : Discovery.classes singleTree "/r/1/c" = .ok ["", "A"] := by decide +kernel
  obtain ⟨_, _, matching, back⟩ := classes_match_files_iff singleTree distinct "/r/1/c"
  have read : singleTree.readFolder "/r/1/c" = .ok [("A.class", .ofText ""), (".class", .ofText "")] := by
    decide +kernel
  have isFile : Discovery.IsClassFile singleTree "/r/1/c" "A.class" := ⟨_, read, .ofText "", by simp, by decide⟩
  refine ⟨distinct, found, (matching _ found).mpr ?_, ?_⟩
  · rintro file ⟨entries, again, entry, member, _⟩
    rw [read] at again
    cases again
    rcases List.mem_pair.mp member with same | same
    · cases same
      decide
    · cases same
      decide
  · exact (back "/r" "1" "c" "A.class" (by decide) isFile (by decide)).mpr (by decide)

def doubledTree : FileTree :=
  ⟨[(["c"], .folder), (["c", "A.class"], .ofText ""), (["c", "A.class.class"], .ofText ""),
    (["c", "B.class.class"], .ofText "")], []⟩

set_option maxRecDepth 10000 in
theorem doubled_classes_unmatched :
    Discovery.classes doubledTree "c" = .ok ["A", "A", "B"] ∧
      Discovery.IsClassFile doubledTree "c" (Layout.classFileName "A.class") ∧
      ¬ Discovery.IsClassFile doubledTree "c" (Layout.classFileName "B") := by
  have read : doubledTree.readFolder "c" =
      .ok [("A.class", .ofText ""), ("A.class.class", .ofText ""), ("B.class.class", .ofText "")] := by decide +kernel
  refine ⟨by decide +kernel, ⟨_, read, .ofText "", by decide, by decide⟩, ?_⟩
  rintro ⟨entries, again, entry, member, _⟩
  rw [read] at again
  cases again
  revert member
  simp [Layout.classFileName]

end BytecodeParity
