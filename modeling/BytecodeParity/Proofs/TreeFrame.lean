import BytecodeParity.Discovery
import BytecodeParity.Proofs.PathSteps
import BytecodeParity.Proofs.WellFormedTree

set_option autoImplicit false

namespace BytecodeParity

namespace Discovery

theorem sorted_names_eq (tree : FileTree) (folder : String) (keep : String → Entry → Bool) :
    sortedNames tree folder keep =
      match tree.readFolder folder with
      | .error cause => .error ⟨folder, cause⟩
      | .ok entries => .ok (sortNames ((entries.filter fun row => keep row.1 row.2).map (·.1))) := by
  rw [sortedNames, Listing.sortedNames, Listing.readFolder, FileTree.readFolder]
  cases tree.locate true folder with
  | error cause => rfl
  | ok found =>
      obtain ⟨location, entry⟩ := found
      cases entry with
      | folder =>
          simp only [Listing.plain, List.filter_map, List.map_map]
          rfl
      | file content executable => rfl
      | link target => rfl

theorem classes_eq (tree : FileTree) (folder : String) :
    classes tree folder =
      if tree.isFolder folder then
        (sortedNames tree folder fun name entry => entry.isFile && classSuffix.isSuffixOf name.toList).map
          fun names => names.map classOfFileName
      else .ok [] := rfl

theorem clean_cons (versionDir name : String) (names : List String) (tree : FileTree) :
    clean versionDir (name :: names) tree =
      if tree.isFolder (Path.join versionDir name) then
        match tree.removeFolder (Path.join versionDir name) with
        | (.ok (), left) => clean versionDir names left
        | (.error cause, left) => (.error ⟨Path.join versionDir name, cause⟩, left)
      else clean versionDir names tree := by
  simp only [clean, cleanTelling]
  cases tree.isFolder (Path.join versionDir name) with
  | false => rfl
  | true =>
      cases tree.removeFolder (Path.join versionDir name) with
      | mk result left => cases result <;> rfl

end Discovery

namespace FileTree

def stays (marked : Location → Bool) (row : Location × Entry) : Bool :=
  !(row.2.isFile && marked row.1)

structure SameBut (marked : Location → Bool) (tree other : FileTree) : Prop where
  here : other.here = tree.here
  rows : other.entries.filter (stays marked) = tree.entries.filter (stays marked)

section Frame

variable {marked : Location → Bool} {tree other last : FileTree}

theorem SameBut.refl (marked : Location → Bool) (tree : FileTree) : SameBut marked tree tree :=
  ⟨rfl, rfl⟩

theorem SameBut.trans (first : SameBut marked tree other) (second : SameBut marked other last) :
    SameBut marked tree last :=
  ⟨second.here.trans first.here, second.rows.trans first.rows⟩

theorem file_of_row (formed : tree.WellFormed) (linkless : tree.Linkless) (row : Location × Entry)
    (member : row ∈ tree.entries) (below : row.1 ≠ []) (noFolder : tree.find? row.1 ≠ some .folder) :
    row.2.isFile := by
  obtain ⟨location, entry⟩ := row
  have found := (find_iff_mem tree formed.distinct location below entry).mpr member
  cases entry with
  | folder => exact absurd found noFolder
  | file content executable => rfl
  | link target => exact absurd rfl (linkless _ member target)

theorem same_but_put (formed : tree.WellFormed) (linkless : tree.Linkless) (location : Location)
    (below : location ≠ []) (isMarked : marked location) (noFolder : tree.find? location ≠ some .folder)
    (content : ByteArray) (executable : Bool) :
    SameBut marked tree (tree.put location (.file content executable)) := by
  refine ⟨rfl, ?_⟩
  have added : stays marked (location, .file content executable) = false := by simp [stays, isMarked, Entry.isFile]
  rw [put, List.filter_append, List.filter_singleton, added, List.filter_filter]
  rw [cond_false, List.append_nil]
  apply List.filter_congr
  intro row member
  by_cases same : row.1 = location
  · subst same
    simp [stays, isMarked, file_of_row formed linkless row member below noFolder]
  · simp [same]

theorem same_but_remove (formed : tree.WellFormed) (location : Location) (below : location ≠ [])
    (isMarked : marked location) (content : ByteArray) (executable : Bool)
    (found : tree.find? location = some (.file content executable)) : SameBut marked tree (tree.remove location) := by
  refine ⟨rfl, ?_⟩
  rw [remove, List.filter_filter]
  apply List.filter_congr
  rintro ⟨lower, entry⟩ member
  by_cases leads : location <+: lower
  · have inside : lower ≠ [] := fun top => below (List.prefix_nil.mp (top ▸ leads))
    have stands := (find_iff_mem tree formed.distinct lower inside entry).mpr member
    obtain rfl := formed.alone location content executable found lower leads entry stands
    rw [found] at stands
    cases stands
    simp [stays, isMarked, Entry.isFile]
  · rw [← List.isPrefixOf_iff_prefix] at leads
    simp [leads]

theorem SameBut.folder (same : SameBut marked tree other) (distinct : (other.entries.map (·.1)).Nodup)
    (location : Location) (found : tree.find? location = some .folder) : other.find? location = some .folder := by
  by_cases top : location = []
  · subst top
    rfl
  · have kept : (location, Entry.folder) ∈ tree.entries.filter (stays marked) :=
      List.mem_filter.mpr ⟨mem_of_find tree location top .folder found, rfl⟩
    rw [← same.rows] at kept
    exact (find_iff_mem other distinct location top .folder).mpr (List.mem_filter.mp kept).1

theorem child_name_location (folder location : Location) (name : String)
    (named : childName? folder location = some name) : location = folder ++ [name] := by
  rw [childName?] at named
  cases last : location.getLast? with
  | none =>
      rw [last] at named
      cases named
  | some lastName =>
      rw [last] at named
      simp only [Option.ite_none_right_eq_some, Option.some.injEq] at named
      obtain ⟨rfl, rfl⟩ := named
      exact (List.dropLast_append_getLast? _ last).symm

theorem SameBut.children (same : SameBut marked tree other) (folder : Location) (keep : String → Entry → Bool)
    (unseen : ∀ name entry, entry.isFile → marked (folder ++ [name]) → keep name entry = false) :
    (other.children folder).filter (fun row => keep row.1 row.2) =
      (tree.children folder).filter fun row => keep row.1 row.2 := by
  have shown : ∀ any : FileTree, (any.children folder).filter (fun row => keep row.1 row.2) =
      ((any.entries.filter (stays marked)).filterMap fun row =>
        (childName? folder row.1).map fun name => (name, row.2)).filter fun row => keep row.1 row.2 := by
    intro any
    rw [FileTree.children, List.filterMap_filter, List.filter_filterMap, List.filter_filterMap]
    refine List.filterMap_congr fun row _ => ?_
    cases rowStays : stays marked row with
    | true => rfl
    | false =>
        obtain ⟨isFile, isMarked⟩ : row.2.isFile ∧ marked row.1 := by simpa [stays] using rowStays
        cases named : childName? folder row.1 with
        | none => rfl
        | some name =>
            have stands := child_name_location folder row.1 name named
            simp [unseen name row.2 isFile (stands ▸ isMarked)]
  rw [shown, shown, same.rows]

end Frame

section Paths

variable {tree : FileTree} {path name : String}

theorem start_folder (formed : tree.WellFormed) (path : String) :
    tree.find? (if Path.isAbsolute path then [] else tree.here) = some .folder := by
  split
  · rfl
  · exact formed.rooted

theorem walk_last (formed : tree.WellFormed) (linkless : tree.Linkless) (last : Path.EndsIn path name)
    (followLast : Bool) (spot : Spot) (walked : tree.walk followLast path = .ok spot) :
    ∃ folder, tree.EndsAt folder name spot := by
  obtain ⟨⟨names, spelled⟩, here, up⟩ := last
  rw [walk, spelled] at walked
  split at walked
  · cases walked
  · exact walk_names_last formed linkless name here up names _ (start_folder formed path) spot walked

theorem locate_last (formed : tree.WellFormed) (linkless : tree.Linkless) (last : Path.EndsIn path name)
    (followLast : Bool) (location : Location) (entry : Entry)
    (located : tree.locate followLast path = .ok (location, entry)) :
    ∃ folder, location = folder ++ [name] ∧ tree.find? location = some entry := by
  rw [locate] at located
  cases walked : tree.walk followLast path with
  | error cause =>
      rw [walked] at located
      cases located
  | ok spot =>
      rw [walked] at located
      obtain ⟨folder, onFolder, ends⟩ := walk_last formed linkless last followLast spot walked
      cases found : tree.find? (folder ++ [name]) with
      | none =>
          rw [found] at ends
          subst ends
          cases located
      | some stands =>
          rw [found] at ends
          subst ends
          cases located
          exact ⟨folder, rfl, found⟩

theorem locate_folder_of_folders {other : FileTree} (linkless : tree.Linkless) (here : other.here = tree.here)
    (folders : ∀ location, tree.find? location = some .folder → other.find? location = some .folder) (path : String)
    (location : Location) (located : tree.locate true path = .ok (location, .folder)) :
    other.locate true path = .ok (location, .folder) := by
  rw [locate] at located ⊢
  cases walked : tree.walk true path with
  | error cause =>
      rw [walked] at located
      cases located
  | ok spot =>
      rw [walked] at located
      cases spot with
      | free above => cases located
      | taken above entry =>
          cases located
          have otherWalked : other.walk true path = .ok (.taken location .folder) := by
            rw [walk] at walked ⊢
            rw [here]
            split
            · next empty =>
                rw [if_pos empty] at walked
                cases walked
            · next given =>
                rw [if_neg given] at walked
                exact walk_names_folder linkless folders _ _ _ walked
          rw [otherWalked]

end Paths

structure Framed (marked : Location → Bool) (tree other : FileTree) : Prop where
  formed : other.WellFormed
  linkless : other.Linkless
  same : SameBut marked tree other

namespace Framed

variable {marked : Location → Bool} {tree other last : FileTree} {path name : String}

theorem remove_file (framed : Framed marked tree other) (ends : Path.EndsIn path name)
    (isMarked : ∀ folder, marked (folder ++ [name])) (removed : other.removeFile path = .ok last) :
    Framed marked tree last := by
  rw [removeFile] at removed
  cases located : other.locate false path with
  | error cause =>
      rw [located] at removed
      cases removed
  | ok found =>
      obtain ⟨location, entry⟩ := found
      rw [located] at removed
      obtain ⟨folder, rfl, stands⟩ := locate_last framed.formed framed.linkless ends false location entry located
      cases entry with
      | folder => cases removed
      | link target => exact absurd stands (framed.linkless.find _ target)
      | file content executable =>
          cases removed
          exact {
            formed := framed.formed.remove_file _ content executable stands
            linkless := framed.linkless.remove _
            same := framed.same.trans
              (same_but_remove framed.formed _ (by simp) (isMarked folder) content executable stands) }

theorem put_file (framed : Framed marked tree other) (folder : Location) (onFolder : other.find? folder = some .folder)
    (isMarked : marked (folder ++ [name])) (noFolder : other.find? (folder ++ [name]) ≠ some .folder)
    (content : ByteArray) (executable : Bool) :
    Framed marked tree (other.put (folder ++ [name]) (.file content executable)) where
  formed := framed.formed.put folder name _ onFolder noFolder
  linkless := framed.linkless.put _ content executable
  same := framed.same.trans
    (same_but_put framed.formed framed.linkless _ (by simp) isMarked noFolder content executable)

theorem write_bytes (framed : Framed marked tree other) (ends : Path.EndsIn path name)
    (isMarked : ∀ folder, marked (folder ++ [name])) (content : ByteArray)
    (written : other.writeBytes path content = .ok last) : Framed marked tree last := by
  rw [writeBytes] at written
  cases walked : other.walk true path with
  | error cause =>
      rw [walked] at written
      cases written
  | ok spot =>
      rw [walked] at written
      obtain ⟨folder, onFolder, stands⟩ := walk_last framed.formed framed.linkless ends true spot walked
      cases found : other.find? (folder ++ [name]) with
      | none =>
          rw [found] at stands
          subst stands
          cases written
          exact framed.put_file folder onFolder (isMarked folder) (by simp [found]) content false
      | some entry =>
          rw [found] at stands
          subst stands
          cases entry with
          | folder => cases written
          | link target => cases written
          | file before executable =>
              cases written
              exact framed.put_file folder onFolder (isMarked folder) (by simp [found]) content executable

theorem locate_folder (framed : Framed marked tree other) (linkless : tree.Linkless) (path : String)
    (location : Location) (located : tree.locate true path = .ok (location, .folder)) :
    other.locate true path = .ok (location, .folder) :=
  locate_folder_of_folders linkless framed.same.here (framed.same.folder framed.formed.distinct) path location located

theorem is_folder (framed : Framed marked tree other) (linkless : tree.Linkless) (path : String)
    (stands : tree.isFolder path) : other.isFolder path := by
  rw [isFolder] at stands ⊢
  cases located : tree.locate true path with
  | error cause =>
      rw [located] at stands
      cases stands
  | ok found =>
      obtain ⟨location, entry⟩ := found
      rw [located] at stands
      cases entry with
      | file content executable => cases stands
      | link target => cases stands
      | folder =>
          rw [framed.locate_folder linkless path location located]
          rfl

theorem sorted_names (framed : Framed marked tree other) (linkless : tree.Linkless) (path : String)
    (keep : String → Entry → Bool)
    (unseen : ∀ folder name entry, entry.isFile → marked (folder ++ [name]) → keep name entry = false)
    (names : List String) (listed : Discovery.sortedNames tree path keep = .ok names) :
    Discovery.sortedNames other path keep = .ok names := by
  rw [Discovery.sorted_names_eq, readFolder] at listed ⊢
  cases located : tree.locate true path with
  | error cause =>
      rw [located] at listed
      cases listed
  | ok found =>
      obtain ⟨location, entry⟩ := found
      rw [located] at listed
      cases entry with
      | file content executable => cases listed
      | link target => cases listed
      | folder =>
          cases listed
          rw [framed.locate_folder linkless path location located]
          simp only
          rw [framed.same.children location keep (unseen location)]

end Framed

end FileTree

end BytecodeParity
