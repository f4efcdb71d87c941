import BytecodeParity.Config
import BytecodeParity.Proofs.TreeRemains

/-!
What cleaning a version folder takes away. Whatever the names are and however links stand, only entries at or
below the places that the joined names lead to are lost. An ordinary name leads to an entry of the version
folder. Other texts can lead out of it, and then the other folder is emptied.
-/

set_option autoImplicit false

namespace BytecodeParity

structure Path.Downward (part : String) : Prop where
  relative : Path.isAbsolute part = false
  noUp : ".." ∉ Path.steps part
  further : ∃ step ∈ Path.steps part, step ≠ "."

namespace FileTree

variable {tree : FileTree}

-- Without links and steps upwards every name leads one folder further, the name of the same folder excepted.
theorem walk_names_down {followLast : Bool} {onLink : Location → List String → Except FileError Spot}
    (linkless : tree.Linkless) (names : List String) (down : ".." ∉ names) (start location : Location) (entry : Entry)
    (walked : tree.walkNames followLast onLink start names = .ok (.taken location entry)) :
    ∃ rest, location = start ++ rest ∧ rest.length = (names.filter (· ≠ ".")).length := by
  induction names generalizing start with
  | nil =>
      cases walked
      exact ⟨[], by simp, rfl⟩
  | cons name names ih =>
      obtain ⟨noUp, downRest⟩ := not_or.mp (mt List.mem_cons.mpr down)
      rw [walkNames] at walked
      split at walked
      · next here =>
          rw [List.filter_cons_of_neg (by simp [here])]
          exact ih downRest start walked
      · next notHere =>
          rw [if_neg (Ne.symm noUp)] at walked
          rw [List.filter_cons_of_pos (by simpa using notHere), List.length_cons]
          simp only at walked
          cases found : tree.find? (start ++ [name]) with
          | none =>
              rw [found] at walked
              cases names <;> cases walked
          | some stands =>
              rw [found] at walked
              cases stands with
              | folder =>
                  obtain ⟨rest, rfl, long⟩ := ih downRest (start ++ [name]) walked
                  exact ⟨name :: rest, by simp, by simp [long]⟩
              | file content executable =>
                  cases names with
                  | nil =>
                      cases walked
                      exact ⟨[name], rfl, rfl⟩
                  | cons next names => cases walked
              | link target => exact absurd found (linkless.find _ target)

theorem locate_down {base part : String} {folder : Location} (onFolder : tree.locate true base = .ok (folder, .folder))
    (linkless : tree.Linkless) (down : Path.Downward part) (location : Location) (entry : Entry)
    (located : tree.locate false (Path.join base part) = .ok (location, entry)) : Below folder location := by
  obtain ⟨relative, noUp, step, isStep, further⟩ := down
  have given : base ≠ "" := by
    rintro rfl
    cases onFolder
  have partGiven : part ≠ "" := by
    rintro rfl
    cases isStep
  have ends : ∀ onLink start, tree.walkNames false onLink start (Path.steps part) =
      tree.walkNames false (fun _ _ => .error .tooManyLinks) start (Path.steps part) :=
    fun _ start => walk_names_linkless linkless (Path.steps part) start
  have walked := walk_join_before base part given relative partGiven (List.ne_nil_of_mem isStep) ends
  rw [FileTree.locate] at onFolder located
  rw [walked] at located
  cases walkedBase : tree.walk true base with
  | error cause =>
      rw [walkedBase] at onFolder
      cases onFolder
  | ok spot =>
      rw [walkedBase] at onFolder located
      cases spot with
      | free above => cases onFolder
      | taken above stands =>
          cases onFolder
          simp only [goOn] at located
          split at located
          · next place stands same =>
              cases located
              obtain ⟨rest, rfl, long⟩ := walk_names_down linkless _ noUp folder location entry same
              have kept : step ∈ (Path.steps part).filter (· ≠ ".") :=
                List.mem_filter.mpr ⟨isStep, by simpa using further⟩
              have longer := List.length_pos_of_mem kept
              refine ⟨List.prefix_append _ _, fun same => ?_⟩
              have nothing : rest = [] := by simpa using same
              rw [nothing, List.length_nil] at long
              omega
          · cases located
          · cases located

end FileTree

namespace Discovery

def Named (tree : FileTree) (versionDir : String) (names : List String) (place : Location) : Prop :=
  ∃ name ∈ names, tree.isFolder (Path.join versionDir name) ∧
    ∃ entry, tree.locate false (Path.join versionDir name) = .ok (place, entry)

theorem clean_left (versionDir : String) (names : List String) (tree : FileTree) :
    FileTree.LeftOf tree (Named tree versionDir names) (clean versionDir names tree).2 := by
  induction names generalizing tree with
  | nil => exact .refl tree _
  | cons name names ih =>
      rw [clean_cons]
      have later : ∀ {left : FileTree} {places : Location → Prop}, FileTree.LeftOf tree places left →
          ∀ place, Named left versionDir names place → Named tree versionDir (name :: names) place := by
        rintro left places part place ⟨other, member, isFolder, entry, located⟩
        exact ⟨other, List.mem_cons_of_mem _ member, part.is_folder _ isFolder, entry, part.locate _ _ _ located⟩
      split
      · next isFolder =>
          have part : FileTree.LeftOf tree (Named tree versionDir (name :: names))
              (tree.removeFolder (Path.join versionDir name)).2 :=
            FileTree.remove_folder_left _ fun location entry located =>
              ⟨name, List.mem_cons_self, isFolder, entry, located⟩
          cases removed : tree.removeFolder (Path.join versionDir name) with
          | mk result left =>
              rw [removed] at part
              cases result with
              | ok done => exact part.trans ((ih left).mono (later part))
              | error cause => exact part
      · exact (ih tree).mono (later (.refl tree (Named tree versionDir names)))

theorem clean_append (versionDir : String) (before after : List String) (tree between : FileTree)
    (done : clean versionDir before tree = (.ok (), between)) :
    clean versionDir (before ++ after) tree = clean versionDir after between := by
  induction before generalizing tree with
  | nil =>
      cases done
      rfl
  | cons name before ih =>
      rw [clean_cons] at done
      rw [List.cons_append, clean_cons]
      split
      · next isFolder =>
          rw [if_pos isFolder] at done
          cases removed : tree.removeFolder (Path.join versionDir name) with
          | mk result left =>
              rw [removed] at done
              cases result with
              | ok emptied => exact ih left done
              | error cause => cases done
      · next noFolder =>
          rw [if_neg noFolder] at done
          exact ih tree done

theorem clean_empties (versionDir name : String) (names : List String) (tree : FileTree) (place : Location)
    (isFolder : tree.isFolder (Path.join versionDir name))
    (located : tree.locate false (Path.join versionDir name) = .ok (place, .folder)) (location : Location)
    (below : FileTree.Below place location) :
    (clean versionDir (name :: names) tree).2.find? location = none := by
  have emptied := FileTree.remove_folder_empties _ place located location below
  rw [clean_cons, if_pos isFolder]
  cases removed : tree.removeFolder (Path.join versionDir name) with
  | mk result left =>
      rw [removed] at emptied
      cases result with
      | ok done => exact (clean_left versionDir names left).gone location emptied
      | error cause => exact emptied

end Discovery

-- Cleaning stays inside the version folder where all the names lead inside it. Ordinary names do, and without
-- links so do all parts that lead downwards. A name that leads elsewhere has the folder there emptied.
theorem clean_frame (versionDir : String) (names : List String) (tree : FileTree) :
    let left := (Discovery.clean versionDir names tree).2
    tree.LeftOf (Discovery.Named tree versionDir names) left ∧
    (∀ folder, tree.locate true versionDir = .ok (folder, .folder) →
      ((∀ place, Discovery.Named tree versionDir names place → FileTree.Below folder place) →
        ∀ location, ¬ FileTree.Below folder location → left.find? location = tree.find? location) ∧
      ((∀ name ∈ names, Path.IsName name) → ∀ place, Discovery.Named tree versionDir names place →
        ∃ name ∈ names, place = folder ++ [name]) ∧
      (tree.Linkless → (∀ name ∈ names, Path.Downward name) →
        ∀ place, Discovery.Named tree versionDir names place → FileTree.Below folder place)) ∧
    ∀ before name after between place, names = before ++ name :: after →
      Discovery.clean versionDir before tree = (.ok (), between) →
      between.isFolder (Path.join versionDir name) →
      between.locate false (Path.join versionDir name) = .ok (place, .folder) →
        ∀ location, FileTree.Below place location → left.find? location = none := by
  intro left
  have part := Discovery.clean_left versionDir names tree
  refine ⟨part, fun folder onFolder => ⟨fun inside location outside => ?_, fun isName => ?_,
    fun linkless down => ?_⟩, ?_⟩
  · exact part.kept location fun place isPlace leads => outside ((inside place isPlace).deeper leads)
  · rintro place ⟨name, member, _, entry, located⟩
    exact ⟨name, member, FileTree.locate_entry onFolder (isName name member) place entry located⟩
  · rintro place ⟨name, member, _, entry, located⟩
    exact FileTree.locate_down onFolder linkless (down name member) place entry located
  · rintro before name after between place rfl done isFolder located location below
    have onward := Discovery.clean_append versionDir before (name :: after) tree between done
    change (Discovery.clean versionDir (before ++ name :: after) tree).2.find? location = none
    rw [onward]
    exact Discovery.clean_empties versionDir name after between place isFolder located location below

def extractedTree : FileTree :=
  ⟨[(["r"], .folder), (["r", "1"], .folder), (["r", "1", "dev"], .folder), (["r", "1", "dev", "c"], .folder),
    (["r", "1", "dev", "c", "A.class"], .ofText ""), (["r", "1", "a.jar"], .ofText ""), (["o"], .folder),
    (["o", "x"], .ofText "")], []⟩

def outLinkedTree : FileTree :=
  { extractedTree with entries := extractedTree.entries ++ [(["r", "1", "META-INF"], .link "/o")] }

set_option maxRecDepth 10000 in
theorem clean_frame_extracted :
    (∀ location, ¬ FileTree.Below ["r", "1"] location →
      (Discovery.clean "/r/1" Config.initial.cleanDirs outLinkedTree).2.find? location =
        outLinkedTree.find? location) ∧
    (Discovery.clean "/r/1" Config.initial.cleanDirs outLinkedTree).2.find? ["r", "1", "dev", "c"] = none ∧
    ∀ place, Discovery.Named extractedTree "/r/1" ["dev/./c/"] place → FileTree.Below ["r", "1"] place := by
  have onFolder : outLinkedTree.locate true "/r/1" = .ok (["r", "1"], .folder) := by decide +kernel
  have unlinked : extractedTree.locate true "/r/1" = .ok (["r", "1"], .folder) := by decide +kernel
  have isFolder : outLinkedTree.isFolder (Path.join "/r/1" "dev") := by decide +kernel
  have leads : outLinkedTree.locate false (Path.join "/r/1" "dev") = .ok (["r", "1", "dev"], .folder) := by
    decide +kernel
  obtain ⟨_, inside, empties⟩ := clean_frame "/r/1" Config.initial.cleanDirs outLinkedTree
  obtain ⟨outside, entries, _⟩ := inside ["r", "1"] onFolder
  refine ⟨outside fun place isPlace => ?_, ?_, ?_⟩
  · obtain ⟨name, _, rfl⟩ := entries (by decide) place isPlace
    exact FileTree.below_append _ name
  · exact empties [] "dev" ["META-INF"] outLinkedTree ["r", "1", "dev"] rfl rfl isFolder leads _
      (FileTree.below_append _ "c")
  · refine ((clean_frame "/r/1" ["dev/./c/"] extractedTree).2.1 ["r", "1"] unlinked).2.2 ?_ ?_
    · simp [FileTree.Linkless, extractedTree, Entry.ofText]
    · intro name member
      rw [List.mem_singleton.mp member]
      exact ⟨by decide, by decide, "dev", by decide, by decide⟩

def neighbourTree : FileTree :=
  ⟨[(["v"], .folder), (["v", "keep.txt"], .ofText ""), (["other"], .folder), (["other", "data.txt"], .ofText "")], []⟩

set_option maxRecDepth 10000 in
theorem clean_leaves_folder :
    neighbourTree.locate true "v" = .ok (["v"], .folder) ∧
      ¬ FileTree.Below ["v"] ["other", "data.txt"] ∧ ¬ FileTree.Below ["v"] ["v"] ∧
      neighbourTree.find? ["other", "data.txt"] = some (.ofText "") ∧
      (Discovery.clean "v" ["../other"] neighbourTree).2.find? ["other", "data.txt"] = none ∧
      (Discovery.clean "v" ["/other"] neighbourTree).2.find? ["other", "data.txt"] = none ∧
      (Discovery.clean "v" [".."] neighbourTree).2.find? ["other", "data.txt"] = none ∧
      (Discovery.clean "v" [""] neighbourTree).2.find? ["v"] = none := by
  refine ⟨by decide +kernel, fun below => ?_, fun below => below.2 rfl, by decide +kernel, by decide +kernel,
    by decide +kernel, by decide +kernel, by decide +kernel⟩
  exact absurd below.1 (by decide)

end BytecodeParity
