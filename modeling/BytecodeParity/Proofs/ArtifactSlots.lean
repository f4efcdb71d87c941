import BytecodeParity.Proofs.ArtifactFiles
import BytecodeParity.Proofs.PlainTree
import BytecodeParity.Proofs.RunStages

set_option autoImplicit false

namespace BytecodeParity

theorem Path.is_name_of_long (name : String) (long : 2 < name.toList.length) (free : '/' ∉ name.toList) :
    IsName name := by
  have longer : ∀ short : String, short.toList.length ≤ 2 → name ≠ short := by
    rintro short bound rfl
    omega
  exact ⟨longer "" (by decide), longer "." (by decide), longer ".." (by decide), free⟩

namespace Layout

def disassemblyName (version className : String) : String :=
  "bytecode_" ++ version ++ "_" ++ className ++ ".txt"

def signaturesName (version className : String) : String :=
  "bytecode_" ++ version ++ "_" ++ className ++ "_methods.txt"

section Names

variable (version className : String)

theorem artifact_names_differ : disassemblyName version className ≠ signaturesName version className := by
  intro same
  have suffixes := (String.append_right_inj _).mp same
  exact absurd suffixes (by decide)

theorem artifact_names_text (folder : Location) :
    isText (folder ++ [disassemblyName version className]) ∧ isText (folder ++ [signaturesName version className]) := by
  simp only [is_text_concat, List.isSuffixOf_iff_suffix, disassemblyName, signaturesName, String.toList_append]
  exact ⟨List.suffix_append_of_suffix (by decide), List.suffix_append_of_suffix (by decide)⟩

variable {version className}

theorem artifact_names_free (isVersion : '/' ∉ version.toList) (isClass : '/' ∉ className.toList) :
    Path.IsName (disassemblyName version className) ∧ Path.IsName (signaturesName version className) := by
  constructor
  · refine Path.is_name_of_long _ ?_ ?_
    · simp [disassemblyName, String.toList_append]
    · simp [disassemblyName, String.toList_append, isVersion, isClass]
  · refine Path.is_name_of_long _ ?_ ?_
    · simp [signaturesName, String.toList_append]
    · simp [signaturesName, String.toList_append, isVersion, isClass]

theorem class_file_name (isClass : '/' ∉ className.toList) :
    Path.IsName (classFileName className) ∧
      ∀ folder : Location, isText (folder ++ [classFileName className]) = false := by
  constructor
  · refine Path.is_name_of_long _ ?_ ?_
    · simp [classFileName, String.toList_append]
    · simp [classFileName, String.toList_append, isClass]
  · intro folder
    rw [is_text_concat]
    refine class_name_no_text _ ?_
    rw [classFileName, String.toList_append, List.isSuffixOf_iff_suffix]
    exact List.suffix_append ..

end Names

end Layout

namespace FileTree

def inFolder? (tree : FileTree) (base name : String) : Option Entry :=
  match tree.locate true base with
  | .ok (folder, .folder) => tree.find? (folder ++ [name])
  | _ => none

theorem in_folder_some_iff (tree : FileTree) (base name : String) (entry : Entry) :
    tree.inFolder? base name = some entry ↔
      ∃ folder, tree.locate true base = .ok (folder, .folder) ∧ tree.find? (folder ++ [name]) = some entry := by
  rw [inFolder?]
  cases tree.locate true base with
  | error cause => simp
  | ok found =>
      obtain ⟨folder, other⟩ := found
      cases other <;> simp

theorem in_folder_of_locate {tree : FileTree} {base : String} {folder : Location}
    (leads : tree.locate true base = .ok (folder, .folder)) (name : String) :
    tree.inFolder? base name = tree.find? (folder ++ [name]) := by
  rw [inFolder?, leads]

theorem is_file_iff (tree : FileTree) (path : String) :
    tree.isFile path ↔
      ∃ location content executable, tree.locate true path = .ok (location, .file content executable) := by
  rw [isFile]
  cases tree.locate true path with
  | error cause => simp
  | ok found =>
      obtain ⟨location, entry⟩ := found
      cases entry <;> simp [Entry.isFile]

theorem Plain.is_present_in_folder {tree : FileTree} (plain : tree.Plain) {base name : String} (given : base ≠ "")
    (isName : Path.IsName name) : tree.isPresent (Path.join base name) = (tree.inFolder? base name).isSome := by
  rw [Bool.eq_iff_iff, plain.is_present_join_iff given isName, Option.isSome_iff_exists]
  simp only [in_folder_some_iff]
  exact exists_comm

end FileTree

namespace Verification

def slotsOf (version className : String) : List (String × String) :=
  [(version, Layout.disassemblyName version className), (version, Layout.signaturesName version className)]

theorem artifacts_of_eq (verification : Verification) (version className : String) :
    verification.artifactsOf version className =
      ⟨Path.join (verification.folderOf version) (Layout.disassemblyName version className),
        Path.join (verification.folderOf version) (Layout.signaturesName version className)⟩ := rfl

section Slots

variable (verification : Verification)

def slot? (tree : FileTree) (version name : String) : Option Entry :=
  tree.inFolder? (verification.folderOf version) name

-- Files come and go at some slots, and nowhere else among the slots and the files that are no text files.
structure Touches (slots : List (String × String)) (tree last : FileTree) : Prop where
  plain : last.Plain
  folders : FileTree.SameFolders tree last
  others : ∀ location, Layout.isText location = false → last.find? location = tree.find? location
  apart : ∀ version name, Path.IsName version → (version, name) ∉ slots →
    verification.slot? last version name = verification.slot? tree version name

def Holds (tree : FileTree) (version name text : String) : Prop :=
  ∃ executable, verification.slot? tree version name = some (.file text.toUTF8 executable)

end Slots

section Touching

variable {verification : Verification} {slots more : List (String × String)} {tree between last : FileTree}

theorem Touches.refl (plain : tree.Plain) : verification.Touches slots tree tree :=
  ⟨plain, .refl tree, fun _ _ => rfl, fun _ _ _ _ => rfl⟩

theorem Touches.trans (first : verification.Touches slots tree between)
    (second : verification.Touches slots between last) : verification.Touches slots tree last where
  plain := second.plain
  folders := first.folders.trans second.folders
  others location noText := (second.others location noText).trans (first.others location noText)
  apart version name isName outside :=
    (second.apart version name isName outside).trans (first.apart version name isName outside)

theorem Touches.mono (touches : verification.Touches slots tree last) (within : slots ⊆ more) :
    verification.Touches more tree last :=
  ⟨touches.plain, touches.folders, touches.others,
    fun version name isName outside => touches.apart version name isName fun member => outside (within member)⟩

theorem Touches.holds (touches : verification.Touches slots tree last) {version name text : String}
    (isName : Path.IsName version) (outside : (version, name) ∉ slots)
    (holds : verification.Holds tree version name text) : verification.Holds last version name text := by
  rw [Holds, touches.apart version name isName outside]
  exact holds

section Rooted

variable (plain : tree.Plain) (rooted : verification.root ≠ "") {version className name : String}
  (isVersion : Path.IsName version)
include rooted

theorem folder_given (version : String) : verification.folderOf version ≠ "" :=
  Path.join_left_given version rooted

include plain isVersion

theorem folder_of_version (folder : Location)
    (leads : tree.locate true (verification.folderOf version) = .ok (folder, .folder)) :
    ∃ top, folder = top ++ [version] ∧ tree.find? folder = some .folder := by
  obtain ⟨top, _, rfl, stands⟩ :=
    (FileTree.locate_join_iff plain.linkless verification.root version rooted isVersion folder .folder).mp leads
  exact ⟨top, rfl, stands⟩

theorem changes_touches (folder : Location) (now : Option Entry)
    (leads : tree.locate true (verification.folderOf version) = .ok (folder, .folder))
    (text : Layout.isText (folder ++ [name])) (changes : FileTree.Changes tree last (folder ++ [name]) now) :
    verification.Touches [(version, name)] tree last ∧ verification.slot? last version name = now := by
  have sameFolders := changes.same_folders
  have located := fun path location => sameFolders.locate_iff plain.linkless changes.plain.linkless path location
  refine ⟨⟨changes.plain, sameFolders, fun location noText => ?_, fun other otherName isOther outside => ?_⟩, ?_⟩
  · rw [changes.find, if_neg]
    rintro rfl
    rw [text] at noText
    cases noText
  · refine Option.ext fun entry => ?_
    simp only [slot?, FileTree.in_folder_some_iff, located]
    refine exists_congr fun otherFolder => and_congr_right fun otherLeads => ?_
    rw [changes.find, if_neg]
    intro same
    obtain ⟨sameFolder, sameName⟩ := List.append_inj' same rfl
    obtain ⟨top, rfl, _⟩ := folder_of_version plain rooted isVersion folder leads
    obtain ⟨otherTop, rfl, _⟩ := folder_of_version plain rooted isOther otherFolder otherLeads
    obtain ⟨_, sameVersion⟩ := List.append_inj' sameFolder rfl
    simp_all
  · rw [slot?, FileTree.in_folder_of_locate ((located _ _).mpr leads), changes.find, if_pos rfl]

theorem remove_stale_touches (isName : Path.IsName name) (text : ∀ folder, Layout.isText (folder ++ [name]))
    (removed : removeStale (Path.join (verification.folderOf version) name) tree = (.ok (), last)) :
    verification.Touches [(version, name)] tree last ∧ verification.slot? last version name = none := by
  have given := folder_given rooted version
  rw [removeStale] at removed
  split at removed
  · split at removed
    · next removes =>
        cases removed
        obtain ⟨folder, leads, changes⟩ := plain.remove_file_join given isName removes
        exact changes_touches plain rooted isVersion folder none leads (text folder) changes
    · cases removed
  · next absent =>
      cases removed
      rw [plain.is_present_in_folder given isName] at absent
      exact ⟨.refl plain, by simpa [slot?] using absent⟩

theorem write_artifact_touches (isName : Path.IsName name) (isText : ∀ folder, Layout.isText (folder ++ [name]))
    (text : String)
    (written : writeArtifact (Path.join (verification.folderOf version) name) text tree = (.ok (), last)) :
    verification.Touches [(version, name)] tree last ∧ verification.Holds last version name text := by
  have given := folder_given rooted version
  rw [writeArtifact] at written
  split at written
  · next writes =>
      cases written
      obtain ⟨folder, executable, leads, changes⟩ := plain.write_bytes_join given isName text.toUTF8
        (fun folder leads => (folder_of_version plain rooted isVersion folder leads).choose_spec.2) writes
      obtain ⟨touches, holds⟩ := changes_touches plain rooted isVersion folder _ leads (isText folder) changes
      exact ⟨touches, executable, holds⟩
  · cases written

section Pairs

variable (isClass : '/' ∉ className.toList)
include isClass

theorem clear_artifacts_touches (clears : verification.clearArtifacts version className tree = (.ok (), last)) :
    verification.Touches (slotsOf version className) tree last ∧
      verification.slot? last version (Layout.disassemblyName version className) = none ∧
      verification.slot? last version (Layout.signaturesName version className) = none := by
  rw [clearArtifacts, artifacts_of_eq] at clears
  obtain ⟨between, removed, removedToo⟩ := (in_turn_ok_iff _ _ _ _).mp clears
  obtain ⟨isFirst, isSecond⟩ := Layout.artifact_names_free isVersion.free isClass
  have texts := Layout.artifact_names_text version className
  obtain ⟨first, gone⟩ := remove_stale_touches plain rooted isVersion isFirst (fun folder => (texts folder).1) removed
  obtain ⟨second, goneToo⟩ :=
    remove_stale_touches first.plain rooted isVersion isSecond (fun folder => (texts folder).2) removedToo
  refine ⟨(first.mono (by simp [slotsOf])).trans (second.mono (by simp [slotsOf])), ?_, goneToo⟩
  rw [second.apart version _ isVersion (by simp [Layout.artifact_names_differ]), gone]

theorem keep_artifacts_touches (artifacts : Artifacts)
    (keeps : verification.keepArtifacts version className artifacts tree = (.ok (), last)) :
    verification.Touches (slotsOf version className) tree last ∧
      verification.Holds last version (Layout.disassemblyName version className) artifacts.full ∧
      verification.Holds last version (Layout.signaturesName version className) artifacts.signatures := by
  rw [keepArtifacts, artifacts_of_eq] at keeps
  obtain ⟨between, written, writtenToo⟩ := (in_turn_ok_iff _ _ _ _).mp keeps
  obtain ⟨isFirst, isSecond⟩ := Layout.artifact_names_free isVersion.free isClass
  have texts := Layout.artifact_names_text version className
  obtain ⟨first, holds⟩ :=
    write_artifact_touches plain rooted isVersion isFirst (fun folder => (texts folder).1) artifacts.full written
  obtain ⟨second, holdsToo⟩ := write_artifact_touches first.plain rooted isVersion isSecond
    (fun folder => (texts folder).2) artifacts.signatures writtenToo
  refine ⟨(first.mono (by simp [slotsOf])).trans (second.mono (by simp [slotsOf])), ?_, holdsToo⟩
  exact second.holds isVersion (by simp [Layout.artifact_names_differ]) holds

end Pairs

omit isVersion in
theorem touches_class_file (isClass : '/' ∉ className.toList) (touches : verification.Touches slots tree last) :
    verification.hasClassFile last version className = verification.hasClassFile tree version className := by
  obtain ⟨isName, noText⟩ := Layout.class_file_name isClass
  have given := folder_given rooted version
  have baseGiven := Path.join_left_given verification.config.classesDir given
  rw [hasClassFile, hasClassFile, classFileOf, Layout.classFile, Path.join_assoc, Bool.eq_iff_iff]
  simp only [FileTree.is_file_iff]
  refine exists_congr fun location => exists_congr fun content => exists_congr fun executable => ?_
  rw [FileTree.locate_join_iff plain.linkless _ _ baseGiven isName,
    FileTree.locate_join_iff touches.plain.linkless _ _ baseGiven isName]
  refine exists_congr fun folder => ?_
  rw [touches.folders.locate_iff plain.linkless touches.plain.linkless]
  refine and_congr_right fun _ => and_congr_right fun spelled => ?_
  rw [spelled, touches.others _ (noText folder)]

end Rooted

end Touching

section Reading

variable {verification : Verification} {tree : FileTree} (plain : tree.Plain) (rooted : verification.root ≠ "")
  {version className name : String}
include plain rooted

theorem holds_text (isName : Path.IsName name) (text : String) (holds : verification.Holds tree version name text) :
    tree.readText (Path.join (verification.folderOf version) name) = .ok text := by
  obtain ⟨executable, stands⟩ := holds
  obtain ⟨folder, leads, found⟩ := (FileTree.in_folder_some_iff _ _ _ _).mp stands
  have located : tree.locate true (Path.join (verification.folderOf version) name) =
      .ok (folder ++ [name], .file text.toUTF8 executable) :=
    (FileTree.locate_join_iff plain.linkless _ name (folder_given rooted version) isName _ _).mpr
      ⟨folder, leads, rfl, found⟩
  have decoded : String.fromUTF8? text.toUTF8 = some text := by
    rw [String.fromUTF8?, dif_pos (by simpa using text.isValidUTF8)]
    rfl
  rw [FileTree.readText, FileTree.readBytes, located]
  simp only [decoded]

theorem slot_absent (isName : Path.IsName name) (absent : verification.slot? tree version name = none) :
    tree.isPresent (Path.join (verification.folderOf version) name) = false := by
  rw [plain.is_present_in_folder (folder_given rooted version) isName]
  rw [slot?] at absent
  rw [absent, Option.isSome_none]

theorem slot_unread (isName : Path.IsName name) (absent : verification.slot? tree version name = none)
    (stands : tree.isFolder (verification.folderOf version)) :
    Discovery.readLines tree (Path.join (verification.folderOf version) name) = .ok none := by
  rw [FileTree.isFolder, FileTree.locate] at stands
  rw [slot?, FileTree.inFolder?, FileTree.locate] at absent
  have walked : tree.walk true (Path.join (verification.folderOf version) name) = _ :=
    FileTree.walk_join plain.linkless (verification.folderOf version) name (folder_given rooted version) isName
  cases onFolder : tree.walk true (verification.folderOf version) with
  | error cause => simp [onFolder] at stands
  | ok spot =>
      rw [onFolder] at stands absent walked
      cases spot with
      | free location => cases stands
      | taken folder entry =>
          cases entry with
          | file content executable => cases stands
          | link target => cases stands
          | folder =>
              simp only at absent
              simp only [FileTree.goOn, FileTree.spotIn, absent] at walked
              rw [Discovery.readLines, FileTree.readText, FileTree.readBytes, FileTree.locate, walked]

end Reading

end Verification

end BytecodeParity
