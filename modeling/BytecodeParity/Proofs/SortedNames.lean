import Mathlib.Data.List.Sort
import Mathlib.Data.String.Basic
import BytecodeParity.Proofs.TreeFrame

set_option autoImplicit false

namespace BytecodeParity

namespace FileTree

theorem mem_children_iff (tree : FileTree) (folder : Location) (name : String) (entry : Entry) :
    (name, entry) ∈ tree.children folder ↔ (folder ++ [name], entry) ∈ tree.entries := by
  rw [children, List.mem_filterMap]
  constructor
  · rintro ⟨⟨location, other⟩, member, found⟩
    obtain ⟨found, named, same⟩ := Option.map_eq_some_iff.mp found
    cases same
    rw [← child_name_location folder location name named]
    exact member
  · intro member
    refine ⟨_, member, ?_⟩
    simp [childName?]

theorem children_distinct (tree : FileTree) (distinct : (tree.entries.map (·.1)).Nodup) (folder : Location) :
    ((tree.children folder).map (·.1)).Nodup := by
  have named : (tree.children folder).map (·.1) = (tree.entries.map (·.1)).filterMap (childName? folder) := by
    rw [children, List.map_filterMap, List.filterMap_map]
    congr 1
    funext row
    cases found : childName? folder row.1 <;> simp [found]
  rw [named]
  refine distinct.filterMap fun location other name isName isOther => ?_
  rw [child_name_location folder location name isName, child_name_location folder other name isOther]

end FileTree

namespace Discovery

theorem insert_name_eq (name : String) (names : List String) :
    insertName name names = names.orderedInsert (· ≤ ·) name := by
  induction names with
  | nil => rfl
  | cons other names ih =>
      by_cases before : name ≤ other
      · rw [insertName, if_pos before, List.orderedInsert_cons_of_le _ _ before]
      · rw [insertName, if_neg before, List.orderedInsert_of_not_le _ _ before, ih]

theorem sort_names_eq (names : List String) : sortNames names = names.insertionSort (· ≤ ·) := by
  induction names with
  | nil => rfl
  | cons name names ih => rw [sortNames, List.foldr_cons, insert_name_eq, List.insertionSort_cons, ← ih, sortNames]

theorem sort_names_perm (names : List String) : (sortNames names).Perm names := by
  rw [sort_names_eq]
  exact List.perm_insertionSort _ names

theorem sort_names_ascending (names : List String) : (sortNames names).Pairwise (· ≤ ·) := by
  rw [sort_names_eq]
  exact List.pairwise_insertionSort _ names

theorem sort_names_of_perm (names others : List String) (same : names.Perm others) :
    sortNames names = sortNames others :=
  ((sort_names_perm names).trans (same.trans (sort_names_perm others).symm)).eq_of_pairwise'
    (sort_names_ascending names) (sort_names_ascending others)

end Discovery

namespace Listing

def kept (listing : Listing) (tree : FileTree) (location : Location) (keep : String → Entry → Bool) : List String :=
  ((listing.rows tree location).filter fun row => keep row.1.reading row.2).map fun row => row.1.reading

theorem sorted_names_ok_iff {listing : Listing} {tree : FileTree} {folder : String} {keep : String → Entry → Bool}
    {names : List String} :
    listing.sortedNames tree folder keep = .ok names ↔ ∃ location, tree.locate true folder = .ok (location, .folder) ∧
      names = Discovery.sortNames (listing.kept tree location keep) := by
  rw [sortedNames, readFolder]
  cases tree.locate true folder with
  | error cause => simp
  | ok located =>
      obtain ⟨location, entry⟩ := located
      cases entry <;> simp [kept, eq_comm]

theorem archive_ok_iff {listing : Listing} {tree : FileTree} {folder : String} {pattern : Matcher}
    {path : Option String} :
    listing.archive? tree folder pattern = .ok path ↔ ∃ names,
      listing.sortedNames tree folder (fun name entry => entry.isFile && pattern.accepts name) = .ok names ∧
        path = names.head?.map (Path.join folder) := by
  rw [archive?]
  cases listing.sortedNames tree folder fun name entry => entry.isFile && pattern.accepts name with
  | error cause => simp [Except.map]
  | ok names => simp [Except.map, eq_comm]

end Listing

namespace Discovery

def Lists (tree : FileTree) (folder : String) (keep : String → Entry → Bool) (name : String) : Prop :=
  ∃ entries, tree.readFolder folder = .ok entries ∧ ∃ entry, (name, entry) ∈ entries ∧ keep name entry

section Listed

variable {tree : FileTree} {folder : String} {keep : String → Entry → Bool} {names : List String}

theorem sorted_names_ok_iff :
    sortedNames tree folder keep = .ok names ↔ ∃ entries, tree.readFolder folder = .ok entries ∧
      names = sortNames ((entries.filter fun row => keep row.1 row.2).map (·.1)) := by
  rw [sorted_names_eq]
  cases tree.readFolder folder with
  | error cause => simp
  | ok entries => simp [eq_comm]

theorem mem_sorted_names_iff (listed : sortedNames tree folder keep = .ok names) (name : String) :
    name ∈ names ↔ Lists tree folder keep name := by
  obtain ⟨entries, read, rfl⟩ := sorted_names_ok_iff.mp listed
  rw [(sort_names_perm _).mem_iff, Lists]
  simp only [read, Except.ok.injEq, exists_eq_left', List.mem_map, List.mem_filter, Prod.exists,
    exists_and_right, exists_eq_right]

theorem sorted_names_ascending (listed : sortedNames tree folder keep = .ok names) : names.Pairwise (· ≤ ·) := by
  obtain ⟨entries, read, rfl⟩ := sorted_names_ok_iff.mp listed
  exact sort_names_ascending _

theorem read_folder_ok_iff (entries : List (String × Entry)) :
    tree.readFolder folder = .ok entries ↔
      ∃ location, tree.locate true folder = .ok (location, .folder) ∧ entries = tree.children location := by
  rw [FileTree.readFolder]
  cases tree.locate true folder with
  | error cause => simp
  | ok found =>
      obtain ⟨location, entry⟩ := found
      cases entry <;> simp [eq_comm]

theorem sorted_names_strict (distinct : (tree.entries.map (·.1)).Nodup)
    (listed : sortedNames tree folder keep = .ok names) : names.Pairwise (· < ·) := by
  have ascending := sorted_names_ascending listed
  obtain ⟨entries, read, rfl⟩ := sorted_names_ok_iff.mp listed
  obtain ⟨location, _, rfl⟩ := (read_folder_ok_iff entries).mp read
  have kept : (((tree.children location).filter fun row => keep row.1 row.2).map (·.1)).Nodup :=
    (tree.children_distinct distinct location).sublist (List.filter_sublist.map _)
  have different := (sort_names_perm _).nodup_iff.mpr kept
  exact (ascending.and different).imp fun pair => lt_of_le_of_ne pair.1 pair.2

end Listed

-- The version folders are the folders below the root whose names fit, links being none of them.
theorem mem_versions_iff (tree : FileTree) (distinct : (tree.entries.map (·.1)).Nodup) (root : String)
    (pattern : Matcher) (found : List String) (listed : versions tree root pattern = .ok found) :
    ∃ location, tree.locate true root = .ok (location, .folder) ∧
      ∀ name, name ∈ found ↔ tree.find? (location ++ [name]) = some .folder ∧ pattern.accepts name := by
  obtain ⟨entries, read, _⟩ := sorted_names_ok_iff.mp listed
  obtain ⟨location, leads, rfl⟩ := (read_folder_ok_iff entries).mp read
  refine ⟨location, leads, fun name => ?_⟩
  rw [mem_sorted_names_iff listed, Lists, FileTree.find_iff_mem tree distinct _ (by simp)]
  simp only [read, Except.ok.injEq, exists_eq_left', FileTree.mem_children_iff, Bool.and_eq_true]
  constructor
  · rintro ⟨entry, member, isFolder, fits⟩
    cases entry with
    | folder => exact ⟨member, fits⟩
    | file content executable => cases isFolder
    | link target => cases isFolder
  · rintro ⟨member, fits⟩
    exact ⟨.folder, member, rfl, fits⟩

end Discovery

end BytecodeParity
