import BytecodeParity.Proofs.ArtifactSlots
import BytecodeParity.Proofs.Replay

/-!
The names of artifacts. The files of two classes in one version folder are four files, unless one class is
named like the other with the ending that marks a listing of signatures: then its disassembly is kept where
the other one has its listing. What disassembles a class touches that class's files alone, and no others'
as long as the names are apart.
-/

set_option autoImplicit false

namespace BytecodeParity

namespace Path

theorem join_leads (base : String) : ∃ front, ∀ part, isAbsolute part = false → join base part = front ++ part := by
  by_cases given : base = ""
  · exact ⟨"", fun part _ => by simp [join, given]⟩
  · exact ⟨opened base, fun part relative => join_relative given relative⟩

theorem names_append_inj {front tail other : String} (free : '/' ∉ tail.toList) (otherFree : '/' ∉ other.toList)
    (long : 2 < tail.toList.length) (otherLong : 2 < other.toList.length) :
    names (front ++ tail) = names (front ++ other) ↔ tail = other := by
  obtain ⟨pieces, piece, split⟩ := Text.split_chars_last '/' front.toList
  have spelled : ∀ text : String, '/' ∉ text.toList → 2 < text.toList.length → names (front ++ text) =
      (pieces.map String.ofList).filter (fun name => name ≠ "" && name ≠ ".") ++ [String.ofList piece ++ text] := by
    intro text isFree isLong
    have longer : ∀ short : String, short.toList.length ≤ 2 → String.ofList piece ++ text ≠ short := by
      rintro _ bound rfl
      rw [String.toList_append, List.length_append] at bound
      omega
    have last : String.ofList (piece ++ text.toList) = String.ofList piece ++ text := by
      rw [String.ofList_append, String.ofList_toList]
    have said := longer "" (by decide)
    have elsewhere := longer "." (by decide)
    rw [names, Text.split, String.toList_append, split _ isFree, List.map_append, List.filter_append,
      List.map_singleton, last, List.filter_singleton]
    simp [said, elsewhere]
  rw [spelled tail free long, spelled other otherFree otherLong, List.append_cancel_left_eq, List.cons.injEq,
    String.append_right_inj]
  exact and_iff_left rfl

end Path

namespace Layout

structure KeptApart (className other : String) : Prop where
  different : className ≠ other
  noListing : className ≠ other ++ "_methods"
  noneOfOther : other ≠ className ++ "_methods"

instance decidableKeptApart (className other : String) : Decidable (KeptApart className other) :=
  decidable_of_iff (className ≠ other ∧ className ≠ other ++ "_methods" ∧ other ≠ className ++ "_methods")
    ⟨fun parts => ⟨parts.1, parts.2.1, parts.2.2⟩, fun apart => ⟨apart.different, apart.noListing, apart.noneOfOther⟩⟩

def endings (className : String) : List String :=
  [className ++ ".txt", className ++ "_methods.txt"]

def beginning (version : String) : String :=
  "bytecode_" ++ version ++ "_"

section Endings

variable (version className other : String)

theorem endings_nodup_iff : (endings className ++ endings other).Nodup ↔ KeptApart className other := by
  have marked : ∀ name : String, name ++ "_methods.txt" = name ++ "_methods" ++ ".txt" := fun name => by
    rw [String.append_assoc]
    rfl
  have unlike : ∀ name : String, name ≠ name ++ "_methods" := fun name same => by
    have lengths := congrArg String.length same
    simp [String.length_append] at lengths
  simp only [endings, marked, List.cons_append, List.nil_append, List.nodup_cons, List.mem_cons, List.not_mem_nil,
    String.append_left_inj, not_or, or_false, not_false_eq_true, List.nodup_nil, and_true]
  constructor
  · rintro ⟨⟨_, different, noListing⟩, ⟨noneOfOther, _⟩, _⟩
    exact ⟨different, noListing, fun same => noneOfOther same.symm⟩
  · intro apart
    exact ⟨⟨unlike className, apart.different, apart.noListing⟩,
      ⟨fun same => apart.noneOfOther same.symm, apart.different⟩, unlike other⟩

theorem ending_long {ending : String} (isEnding : ending ∈ endings className) : 2 < ending.toList.length := by
  simp only [endings, List.mem_cons, List.not_mem_nil, or_false] at isEnding
  rcases isEnding with rfl | rfl <;> simp [String.toList_append]

theorem ending_free (isClass : '/' ∉ className.toList) {ending : String} (isEnding : ending ∈ endings className) :
    '/' ∉ ending.toList := by
  simp only [endings, List.mem_cons, List.not_mem_nil, or_false] at isEnding
  rcases isEnding with rfl | rfl <;> simp [String.toList_append, isClass]

theorem artifact_names_eq : [disassemblyName version className, signaturesName version className] =
    (endings className).map fun ending => beginning version ++ ending := by
  simp [disassemblyName, signaturesName, endings, beginning, String.append_assoc]

end Endings

end Layout

def ArtifactPaths.both (paths : ArtifactPaths) : List String :=
  [paths.disassembly, paths.signatures]

namespace Layout

theorem artifact_paths_front (root version : String) :
    ∃ front, ∀ className, (artifactPaths root version className).both =
      (endings className).map fun ending => front ++ ending := by
  obtain ⟨front, joined⟩ := Path.join_leads (versionDir root version)
  refine ⟨front ++ beginning version, fun className => ?_⟩
  have relative : ∀ text, Path.isAbsolute ("bytecode_" ++ text) = false := fun text => by
    simp [Path.isAbsolute, String.toList_append, List.isPrefixOf]
  simp only [ArtifactPaths.both, artifactPaths, endings, beginning, List.map_cons, List.map_nil, String.append_assoc,
    joined _ (relative _)]

section Paths

variable (root version className other : String)

theorem artifact_paths_nodup_iff :
    ((artifactPaths root version className).both ++ (artifactPaths root version other).both).Nodup ↔
      KeptApart className other := by
  obtain ⟨front, leads⟩ := artifact_paths_front root version
  rw [leads, leads, ← List.map_append, ← endings_nodup_iff]
  exact List.nodup_map_iff fun _ _ same => (String.append_right_inj front).mp same

theorem artifact_path_names_nodup_iff (isClass : '/' ∉ className.toList) (isOther : '/' ∉ other.toList) :
    (((artifactPaths root version className).both ++ (artifactPaths root version other).both).map Path.names).Nodup ↔
      KeptApart className other := by
  obtain ⟨front, leads⟩ := artifact_paths_front root version
  have free : ∀ ending ∈ endings className ++ endings other, '/' ∉ ending.toList ∧ 2 < ending.toList.length := by
    intro ending member
    rcases List.mem_append.mp member with ofClass | ofOther
    · exact ⟨ending_free className isClass ofClass, ending_long className ofClass⟩
    · exact ⟨ending_free other isOther ofOther, ending_long other ofOther⟩
  rw [leads, leads, ← List.map_append, List.map_map, ← endings_nodup_iff]
  refine ⟨List.Nodup.of_map _, fun distinct => distinct.map_on fun ending member another isEnding same => ?_⟩
  obtain ⟨endingFree, long⟩ := free ending member
  obtain ⟨anotherFree, anotherLong⟩ := free another isEnding
  exact (Path.names_append_inj endingFree anotherFree long anotherLong).mp same

end Paths

end Layout

namespace Verification

section Frame

variable {verification : Verification} {slots more : List (String × String)}

theorem slots_nodup_iff (version className other : String) :
    (slotsOf version className ++ slotsOf version other).Nodup ↔ Layout.KeptApart className other := by
  have ofNames : ∀ name, slotsOf version name =
      (Layout.endings name).map fun ending => (version, Layout.beginning version ++ ending) := by
    intro name
    have named := congrArg (List.map (Prod.mk version)) (Layout.artifact_names_eq version name)
    rw [List.map_map] at named
    exact named
  rw [ofNames, ofNames, ← List.map_append, ← Layout.endings_nodup_iff]
  exact List.nodup_map_iff fun _ _ same => (String.append_right_inj _).mp (Prod.mk.inj same).2

def Within (verification : Verification) (slots : List (String × String))
    (act : FileTree → Except RunError Unit × FileTree) : Prop :=
  ∀ tree, tree.Plain → verification.Touches slots tree (act tree).2

theorem within_in_turn {first second : FileTree → Except RunError Unit × FileTree}
    (isFirst : verification.Within slots first) (isSecond : verification.Within more second) :
    verification.Within (slots ++ more) (inTurn first second) := by
  intro tree plain
  have begun := isFirst tree plain
  rw [inTurn]
  cases ran : first tree with
  | mk result between =>
      rw [ran] at begun
      cases result with
      | error error => exact begun.mono (List.subset_append_left ..)
      | ok done =>
          exact (begun.mono (List.subset_append_left ..)).trans
            ((isSecond between begun.plain).mono (List.subset_append_right ..))

variable (rooted : verification.root ≠ "") {version className other : String} (isVersion : Path.IsName version)
include rooted isVersion

theorem remove_stale_within {name : String} (isName : Path.IsName name)
    (text : ∀ folder, Layout.isText (folder ++ [name])) :
    verification.Within [(version, name)] (removeStale (Path.join (verification.folderOf version) name)) := by
  intro tree plain
  cases removed : removeStale (Path.join (verification.folderOf version) name) tree with
  | mk result last =>
      cases result with
      | ok done => exact (remove_stale_touches plain rooted isVersion isName text removed).1
      | error error =>
          obtain ⟨rfl, _⟩ := remove_stale_failed removed
          exact .refl plain

theorem write_artifact_within {name : String} (isName : Path.IsName name)
    (isText : ∀ folder, Layout.isText (folder ++ [name])) (text : String) :
    verification.Within [(version, name)] (writeArtifact (Path.join (verification.folderOf version) name) text) := by
  intro tree plain
  cases written : writeArtifact (Path.join (verification.folderOf version) name) text tree with
  | mk result last =>
      cases result with
      | ok done => exact (write_artifact_touches plain rooted isVersion isName isText text written).1
      | error error =>
          obtain ⟨rfl, _⟩ := write_artifact_failed written
          exact .refl plain

variable (isClass : '/' ∉ className.toList)
include isClass

theorem clear_artifacts_within :
    verification.Within (slotsOf version className) (verification.clearArtifacts version className) := by
  obtain ⟨isFirst, isSecond⟩ := Layout.artifact_names_free isVersion.free isClass
  have texts := Layout.artifact_names_text version className
  simp only [clearArtifacts, artifacts_of_eq]
  exact within_in_turn (remove_stale_within rooted isVersion isFirst fun folder => (texts folder).1)
    (remove_stale_within rooted isVersion isSecond fun folder => (texts folder).2)

theorem keep_artifacts_within (artifacts : Artifacts) :
    verification.Within (slotsOf version className) (verification.keepArtifacts version className artifacts) := by
  obtain ⟨isFirst, isSecond⟩ := Layout.artifact_names_free isVersion.free isClass
  have texts := Layout.artifact_names_text version className
  simp only [keepArtifacts, artifacts_of_eq]
  exact within_in_turn (write_artifact_within rooted isVersion isFirst (fun folder => (texts folder).1) _)
    (write_artifact_within rooted isVersion isSecond (fun folder => (texts folder).2) _)

-- All that disassembling a class does to the tree is to clear and to keep the artifacts of this class.
theorem disassemble_pair_touches (reads : ReadsOnly verification.tools) (progress : Progress)
    (plain : progress.tree.Plain) :
    verification.Touches (slotsOf version className) progress.tree
      ((disassemblePair verification version className).run progress).2.tree := by
  have clearing := clear_artifacts_within rooted isVersion isClass progress.tree plain
  rw [disassemble_pair_run]
  cases clears : verification.clearArtifacts version className progress.tree with
  | mk result cleared =>
      rw [clears] at clearing
      cases result with
      | error error => exact clearing
      | ok done =>
          simp only
          split
          · have unchanged := reads (verification.folderOf version) (verification.classFileOf className) cleared
            cases answers : verification.tools.disassemble (verification.folderOf version)
                (verification.classFileOf className) cleared with
            | mk answer answered =>
                obtain rfl : answered = cleared := by rw [← unchanged, answers]
                cases answer with
                | error error => exact clearing
                | ok artifacts =>
                    have keeping := keep_artifacts_within rooted isVersion isClass artifacts answered clearing.plain
                    simp only
                    cases keeps : verification.keepArtifacts version className artifacts answered with
                    | mk result last =>
                        rw [keeps] at keeping
                        cases result <;> exact clearing.trans keeping
          · exact clearing

end Frame

def KeepsPair (verification : Verification) (version className : String) (tree last : FileTree) : Prop :=
  ∀ slot ∈ slotsOf version className,
    verification.slot? last slot.1 slot.2 = verification.slot? tree slot.1 slot.2

theorem Touches.keeps_pair {verification : Verification} {version className other : String} {tree last : FileTree}
    (touches : verification.Touches (slotsOf version className) tree last) (isVersion : Path.IsName version)
    (apart : Layout.KeptApart className other) : verification.KeepsPair version other tree last := by
  intro slot ofOther
  have distinct := (slots_nodup_iff version className other).mpr apart
  have outside : slot ∉ slotsOf version className :=
    fun ofClass => List.disjoint_of_nodup_append distinct ofClass ofOther
  have sameVersion : slot.1 = version := by
    simp only [slotsOf, List.mem_cons, List.not_mem_nil, or_false] at ofOther
    rcases ofOther with rfl | rfl <;> rfl
  exact touches.apart slot.1 slot.2 (sameVersion ▸ isVersion) outside

-- Names that are not apart give the two pairs a slot in common.
theorem shared_slot (version className other : String) (shares : ¬ Layout.KeptApart className other) :
    ∃ name, (version, name) ∈ slotsOf version other ∧
      (name = Layout.disassemblyName version className ∨ name = Layout.signaturesName version className) := by
  have marked : ∀ name : String,
      Layout.disassemblyName version (name ++ "_methods") = Layout.signaturesName version name := fun name => by
    simp only [Layout.disassemblyName, Layout.signaturesName, String.append_assoc]
    rfl
  by_cases same : className = other
  · exact ⟨_, List.mem_cons_self .., .inl (same ▸ rfl)⟩
  · by_cases isListing : className = other ++ "_methods"
    · exact ⟨Layout.signaturesName version other, by simp [slotsOf], .inl (by rw [isListing, marked])⟩
    · by_cases otherIsListing : other = className ++ "_methods"
      · exact ⟨Layout.disassemblyName version other, by simp [slotsOf], .inr (by rw [otherIsListing, marked])⟩
      · exact absurd ⟨same, isListing, otherIsListing⟩ shares

section Classes

variable (verification : Verification) (version className other : String) (tree : FileTree)

structure LeavesAlone : Prop where
  clearing : verification.KeepsPair version other tree (verification.clearArtifacts version className tree).2
  keeping : ∀ artifacts,
    verification.KeepsPair version other tree (verification.keepArtifacts version className artifacts tree).2
  disassembling : ReadsOnly verification.tools → ∀ calls log, verification.KeepsPair version other tree
    ((disassemblePair verification version className).run ⟨tree, calls, log⟩).2.tree

def ReachesInto : Prop :=
  ∃ name, (version, name) ∈ slotsOf version other ∧
    (∀ cleared, verification.clearArtifacts version className tree = (.ok (), cleared) →
      verification.slot? cleared version name = none) ∧
    ∀ artifacts last, verification.keepArtifacts version className artifacts tree = (.ok (), last) →
      verification.Holds last version name artifacts.full ∨ verification.Holds last version name artifacts.signatures

end Classes

-- The files of two classes are four files just when the names of the classes are apart, and only then
-- what is done for the one class has no part in the files of the other one.
theorem artifacts_apart_iff (verification : Verification) (version className other : String) :
    (((verification.artifactsOf version className).both ++ (verification.artifactsOf version other).both).Nodup ↔
      Layout.KeptApart className other) ∧
    ('/' ∉ className.toList → '/' ∉ other.toList →
      ((((verification.artifactsOf version className).both ++
        (verification.artifactsOf version other).both).map Path.names).Nodup ↔ Layout.KeptApart className other) ∧
      (verification.root ≠ "" → Path.IsName version → ∀ tree, tree.Plain →
        (Layout.KeptApart className other → verification.LeavesAlone version className other tree) ∧
        (¬ Layout.KeptApart className other → verification.ReachesInto version className other tree))) := by
  refine ⟨Layout.artifact_paths_nodup_iff .., fun isClass isOther =>
    ⟨Layout.artifact_path_names_nodup_iff _ _ _ _ isClass isOther, fun rooted isVersion tree plain => ⟨?_, ?_⟩⟩⟩
  · intro apart
    refine ⟨?_, fun artifacts => ?_, fun reads calls log => ?_⟩
    · exact (clear_artifacts_within rooted isVersion isClass tree plain).keeps_pair isVersion apart
    · exact (keep_artifacts_within rooted isVersion isClass artifacts tree plain).keeps_pair isVersion apart
    · exact (disassemble_pair_touches rooted isVersion isClass reads ⟨tree, calls, log⟩ plain).keeps_pair
        isVersion apart
  · intro shares
    obtain ⟨name, ofOther, own⟩ := shared_slot version className other shares
    refine ⟨name, ofOther, fun cleared clears => ?_, fun artifacts last keeps => ?_⟩
    · obtain ⟨_, noDisassembly, noSignatures⟩ := clear_artifacts_touches plain rooted isVersion isClass clears
      rcases own with rfl | rfl
      · exact noDisassembly
      · exact noSignatures
    · obtain ⟨_, disassembly, signatures⟩ := keep_artifacts_touches plain rooted isVersion isClass artifacts keeps
      rcases own with rfl | rfl
      · exact .inl disassembly
      · exact .inr signatures

end Verification

def crossedTree : FileTree :=
  ⟨[(["r"], .folder), (["r", "1"], .folder), (["r", "1", "c"], .folder), (["r", "1", "c", "A.class"], .ofText ""),
    (["r", "1", "c", "A_methods.class"], .ofText ""), (["r", "1", "bytecode_1_A.txt"], .ofText "  m();"),
    (["r", "1", "bytecode_1_A_methods.txt"], .ofText "  m();")], []⟩

theorem crossed_plain : crossedTree.Plain where
  distinct := by decide
  placed := by decide
  linkless := by simp [FileTree.Linkless, crossedTree, Entry.ofText]
  named := by decide

theorem artifacts_apart_crossed :
    disassemblingVerification.LeavesAlone "1" "B" "A" crossedTree ∧
      disassemblingVerification.ReachesInto "1" "A_methods" "A" crossedTree := by
  have unlike := (Verification.artifacts_apart_iff disassemblingVerification "1" "B" "A").2 (by decide) (by decide)
  have alike :=
    (Verification.artifacts_apart_iff disassemblingVerification "1" "A_methods" "A").2 (by decide) (by decide)
  exact ⟨(unlike.2 (by decide) (by decide) crossedTree crossed_plain).1 (by decide),
    (alike.2 (by decide) (by decide) crossedTree crossed_plain).2 (by decide)⟩

set_option maxRecDepth 10000 in
theorem listing_overwritten :
    "A" ≠ "A_methods" ∧
      (disassemblingVerification.artifactsOf "1" "A").signatures =
        (disassemblingVerification.artifactsOf "1" "A_methods").disassembly ∧
      ¬ ((disassemblingVerification.artifactsOf "1" "A").both ++
        (disassemblingVerification.artifactsOf "1" "A_methods").both).Nodup ∧
      (disassemblingVerification.run "noon" crossedTree).2.tree.entries.lookup
        ["r", "1", Layout.signaturesName "1" "A"] = some (.ofText (methodCalling "n/X")) ∧
      methodCalling "n/X" ≠ listedMethod := by
  refine ⟨by decide, by decide, ?_, by decide +kernel, by decide⟩
  rw [Verification.artifactsOf, Verification.artifactsOf, Layout.artifact_paths_nodup_iff]
  decide

end BytecodeParity
