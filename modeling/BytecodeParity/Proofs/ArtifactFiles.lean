import BytecodeParity.Proofs.RunPhases
import BytecodeParity.Proofs.TreeFrame

set_option autoImplicit false

namespace BytecodeParity

namespace Job

variable {α β : Type} {kept : FileTree → Prop}

def Maintains (kept : FileTree → Prop) (job : Job α) : Prop :=
  ∀ progress, kept progress.tree → kept (job.run progress).2.tree

theorem maintains_bind (job : Job α) (next : α → Job β) (first : Maintains kept job)
    (rest : ∀ value, Maintains kept (next value)) : Maintains kept (job >>= next) := by
  intro progress holds
  have after := first progress holds
  rw [run_bind]
  cases ran : job.run progress with
  | mk result reached =>
      rw [ran] at after
      cases result with
      | error error => exact after
      | ok value => exact rest value reached after

theorem maintains_pure (value : α) : Maintains kept (pure value : Job α) :=
  fun _ holds => holds

theorem maintains_ask (read : FileTree → Except RunError α) : Maintains kept (ask read) :=
  fun _ holds => holds

theorem maintains_change (act : FileTree → Except RunError α × FileTree)
    (acts : ∀ tree, kept tree → kept (act tree).2) : Maintains kept (change act) :=
  fun progress holds => acts progress.tree holds

theorem maintains_call (tool : ToolCall) : Maintains kept (call tool) :=
  fun _ holds => holds

theorem maintains_note (entries : List LogEntry) : Maintains kept (note entries) :=
  fun _ holds => holds

theorem maintains_ite (condition : Prop) [Decidable condition] (yes no : Job α) (first : Maintains kept yes)
    (second : Maintains kept no) : Maintains kept (if condition then yes else no) := by
  split
  · exact first
  · exact second

end Job

namespace Layout

def textSuffix : List Char := ".txt".toList

def isText (location : Location) : Bool :=
  location.getLast?.any fun name => textSuffix.isSuffixOf name.toList

theorem is_text_concat (folder : Location) (name : String) :
    isText (folder ++ [name]) = textSuffix.isSuffixOf name.toList := by
  simp [isText]

theorem class_name_no_text (name : String) (isClass : Discovery.classSuffix.isSuffixOf name.toList) :
    textSuffix.isSuffixOf name.toList = false := by
  rw [List.isSuffixOf_iff_suffix] at isClass
  rw [← Bool.not_eq_true, List.isSuffixOf_iff_suffix]
  intro isText
  have shorter := List.suffix_of_suffix_length_le isText isClass (by decide)
  revert shorter
  decide

def TextPath (path : String) : Prop :=
  ∃ name, Path.EndsIn path name ∧ ∀ folder : Location, isText (folder ++ [name])

theorem text_path_join (folder stem : String) (suffix : String) (text : textSuffix <:+ suffix.toList) :
    TextPath (Path.join folder (stem ++ suffix)) := by
  obtain ⟨front, joined⟩ := Path.join_ends folder (stem ++ suffix)
  have ends : textSuffix <:+ (Path.join folder (stem ++ suffix)).toList := by
    rw [joined, String.toList_append, String.toList_append]
    exact text.trans ((List.suffix_append _ _).trans (List.suffix_append _ _))
  obtain ⟨name, endsIn, named⟩ := Path.ends_in_of_suffix _ textSuffix (by decide) (by decide) ends
  refine ⟨name, endsIn, fun above => ?_⟩
  rw [is_text_concat, List.isSuffixOf_iff_suffix]
  exact named

theorem artifact_text_paths (root version className : String) :
    TextPath (artifactPaths root version className).disassembly ∧
      TextPath (artifactPaths root version className).signatures :=
  ⟨text_path_join _ _ ".txt" (by decide), text_path_join _ _ "_methods.txt" (by decide)⟩

end Layout

namespace Verification

def SameButTexts (tree : FileTree) : FileTree → Prop :=
  FileTree.Framed Layout.isText tree

section Disassembling

variable {tree : FileTree} {path : String}

theorem remove_stale_texts (text : Layout.TextPath path) :
    Job.Maintains (SameButTexts tree) (Job.change (removeStale path)) := by
  refine Job.maintains_change _ fun other framed => ?_
  obtain ⟨name, ends, isMarked⟩ := text
  rw [removeStale]
  split
  · cases removed : other.removeFile path with
    | error cause => exact framed
    | ok last => exact framed.remove_file ends isMarked removed
  · exact framed

theorem write_artifact_texts (text : Layout.TextPath path) (content : String) :
    Job.Maintains (SameButTexts tree) (Job.change (writeArtifact path content)) := by
  refine Job.maintains_change _ fun other framed => ?_
  obtain ⟨name, ends, isMarked⟩ := text
  rw [writeArtifact]
  cases written : other.writeText path content with
  | error cause => exact framed
  | ok last => exact framed.write_bytes ends isMarked _ written

def ReadsOnly (tools : Toolkit) : Prop :=
  ∀ folder classFile tree, (tools.disassemble folder classFile tree).2 = tree

theorem disassemble_pair_texts (verification : Verification) (reads : ReadsOnly verification.tools)
    (version className : String) :
    Job.Maintains (SameButTexts tree) (disassemblePair verification version className) := by
  obtain ⟨disassembly, signatures⟩ := Layout.artifact_text_paths verification.root version className
  unfold disassemblePair
  refine Job.maintains_bind _ _ (remove_stale_texts disassembly) fun _ => ?_
  refine Job.maintains_bind _ _ (remove_stale_texts signatures) fun _ => ?_
  refine Job.maintains_bind _ _ (Job.maintains_ask _) fun isFile => ?_
  refine Job.maintains_ite _ _ _ ?_ (Job.maintains_note _)
  refine Job.maintains_bind _ _ (Job.maintains_call _) fun _ => ?_
  refine Job.maintains_bind _ _ (Job.maintains_change _ fun other framed => ?_) fun artifacts => ?_
  · exact (reads _ _ other).symm ▸ framed
  · refine Job.maintains_bind _ _ (write_artifact_texts disassembly _) fun _ => ?_
    exact Job.maintains_bind _ _ (write_artifact_texts signatures _) fun _ => Job.maintains_note _

theorem disassemble_pairs_texts (verification : Verification) (reads : ReadsOnly verification.tools)
    (pairs : List (String × String)) : Job.Maintains (SameButTexts tree) (disassemblePairs verification pairs) := by
  induction pairs with
  | nil => exact Job.maintains_pure ()
  | cons pair pairs ih =>
      exact Job.maintains_bind _ _ (disassemble_pair_texts verification reads pair.1 pair.2) fun _ => ih

end Disassembling

section Discovering

variable {tree other : FileTree}

theorem versions_again (framed : SameButTexts tree other) (linkless : tree.Linkless) (root : String)
    (pattern : Matcher) (versions : List String)
    (found : Discovery.versions tree root pattern = .ok versions) :
    Discovery.versions other root pattern = .ok versions := by
  refine FileTree.Framed.sorted_names framed linkless root _ ?_ versions found
  intro folder name entry isFile isMarked
  cases entry with
  | file content executable => rfl
  | folder => cases isFile
  | link target => cases isFile

theorem classes_again (framed : SameButTexts tree other) (linkless : tree.Linkless) (path : String)
    (classes : List String) (nonempty : classes ≠ []) (found : Discovery.classes tree path = .ok classes) :
    Discovery.classes other path = .ok classes := by
  rw [Discovery.classes_eq] at found ⊢
  split at found
  · next isFolder =>
      rw [if_pos (FileTree.Framed.is_folder framed linkless path isFolder)]
      cases listed : Discovery.sortedNames tree path fun name entry =>
          entry.isFile && Discovery.classSuffix.isSuffixOf name.toList with
      | error cause =>
          rw [listed] at found
          cases found
      | ok names =>
          rw [listed] at found
          rw [FileTree.Framed.sorted_names framed linkless path _ ?_ names listed]
          · exact found
          · intro folder name entry isFile isMarked
            rw [Layout.is_text_concat] at isMarked
            cases isClass : Discovery.classSuffix.isSuffixOf name.toList with
            | false => simp
            | true => simp [Layout.class_name_no_text name isClass] at isMarked
  · cases found
    exact absurd rfl nonempty

end Discovering

end Verification

end BytecodeParity
