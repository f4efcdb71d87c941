import BytecodeParity.Proofs.JoinedNames
import BytecodeParity.Proofs.SortedNames

set_option autoImplicit false

namespace BytecodeParity

namespace FileTree

theorem lookup_restricted (entries : List (Location × Entry)) (keep : Location → Bool) (location : Location) :
    (entries.filter fun row => keep row.1).lookup location =
      if keep location then entries.lookup location else none := by
  induction entries with
  | nil => simp
  | cons row entries ih =>
      obtain ⟨other, entry⟩ := row
      by_cases same : location = other
      · subst same
        cases kept : keep location with
        | true => simp [kept]
        | false => simpa [kept] using ih
      · have apart : (location == other) = false := by simpa using same
        cases kept : keep other <;> simp [List.lookup_cons, kept, apart, ih]

theorem find_below (tree : FileTree) (location : Location) (below : location ≠ []) :
    tree.find? location = tree.entries.lookup location := by
  rw [find?, if_neg (by simpa using below)]

theorem find_put (tree : FileTree) (location : Location) (below : location ≠ []) (entry : Entry) (other : Location) :
    (tree.put location entry).find? other = if other = location then some entry else tree.find? other := by
  by_cases top : other = []
  · subst top
    rw [if_neg (Ne.symm below)]
    rfl
  rw [find_below _ other top, find_below tree other top, FileTree.put, List.lookup_append,
    lookup_restricted tree.entries fun any => decide (any ≠ location)]
  by_cases same : other = location
  · simp [same]
  · have apart : (other == location) = false := by simpa using same
    simp [same, List.lookup_cons, apart]

theorem find_remove (tree : FileTree) (location : Location) (below : location ≠ []) (other : Location) :
    (tree.remove location).find? other = if location <+: other then none else tree.find? other := by
  by_cases top : other = []
  · subst top
    rw [if_neg fun leads => below (List.prefix_nil.mp leads)]
    rfl
  rw [find_below _ other top, find_below tree other top, FileTree.remove,
    lookup_restricted tree.entries fun any => !location.isPrefixOf any]
  by_cases leads : location <+: other
  · simp [leads, List.isPrefixOf_iff_prefix.mpr leads]
  · have apart : location.isPrefixOf other = false := by
      rw [← Bool.not_eq_true, List.isPrefixOf_iff_prefix]
      exact leads
    simp [leads, apart]

structure Plain (tree : FileTree) : Prop where
  distinct : (tree.entries.map (·.1)).Nodup
  placed : ∀ row ∈ tree.entries, tree.find? row.1.dropLast = some .folder
  linkless : tree.Linkless
  named : ∀ row ∈ tree.entries, ∀ name ∈ row.1, Path.IsName name

namespace Plain

variable {tree : FileTree} (plain : tree.Plain)
include plain

-- Where relative paths start from plays no part in how the entries stand.
theorem formed : WellFormed { tree with here := [] } where
  distinct := plain.distinct
  placed := plain.placed
  rooted := rfl

theorem restrict (keep : Location → Bool)
    (closed : ∀ location, keep location → location.dropLast ≠ [] → keep location.dropLast) :
    Plain { tree with entries := tree.entries.filter fun row => keep row.1 } where
  distinct := plain.distinct.sublist (List.filter_sublist.map _)
  placed row member := by
    obtain ⟨old, kept⟩ := List.mem_filter.mp member
    have onFolder := plain.placed row old
    rw [find?] at onFolder ⊢
    split
    · rfl
    · next below =>
        rw [if_neg below] at onFolder
        rw [lookup_restricted, closed row.1 kept (by simpa using below), if_pos rfl]
        exact onFolder
  linkless row member := plain.linkless row (List.mem_filter.mp member).1
  named row member := plain.named row (List.mem_filter.mp member).1

theorem remove (location : Location) : (tree.remove location).Plain := by
  refine plain.restrict (fun other => !location.isPrefixOf other) fun other apart _ => ?_
  rw [Bool.not_eq_true', ← Bool.not_eq_true, List.isPrefixOf_iff_prefix] at apart ⊢
  exact fun leads => apart (leads.trans (List.dropLast_prefix other))

theorem clear (location : Location) : (tree.clear location).Plain := by
  refine plain.restrict (fun other => other = location || !location.isPrefixOf other) fun other kept below => ?_
  have apart : ¬ location <+: other.dropLast := by
    intro leads
    rw [Bool.or_eq_true, decide_eq_true_eq, Bool.not_eq_true', ← Bool.not_eq_true, List.isPrefixOf_iff_prefix] at kept
    rcases kept with rfl | apart
    · have shorter := leads.length_le
      rw [List.length_dropLast] at shorter
      have nonempty : other ≠ [] := fun empty => below (by simp [empty])
      have long := List.length_pos_iff.mpr nonempty
      omega
    · exact apart (leads.trans (List.dropLast_prefix other))
  rw [← List.isPrefixOf_iff_prefix, Bool.not_eq_true] at apart
  simp [apart]

theorem put (folder : Location) (name : String) (isName : Path.IsName name)
    (onFolder : tree.find? folder = some .folder) (noFolder : tree.find? (folder ++ [name]) ≠ some .folder)
    (content : ByteArray) (executable : Bool) : (tree.put (folder ++ [name]) (.file content executable)).Plain := by
  have formed := plain.formed.put folder name (.file content executable) onFolder noFolder
  have above : ∀ other ∈ folder, Path.IsName other := by
    intro other inFolder
    have below : folder ≠ [] := List.ne_nil_of_mem inFolder
    exact plain.named _ (mem_of_find tree folder below .folder onFolder) other inFolder
  refine ⟨formed.distinct, formed.placed, plain.linkless.put _ content executable, fun row member other part => ?_⟩
  rcases List.mem_append.mp member with old | new
  · exact plain.named row (List.mem_filter.mp old).1 other part
  · obtain rfl := List.mem_singleton.mp new
    rcases List.mem_append.mp part with inFolder | last
    · exact above other inFolder
    · exact List.mem_singleton.mp last ▸ isName

theorem name_of_find (folder : Location) (name : String) (entry : Entry)
    (found : tree.find? (folder ++ [name]) = some entry) : Path.IsName name :=
  plain.named _ (mem_of_find tree _ (by simp) entry found) name (by simp)

end Plain

structure SameFolders (tree other : FileTree) : Prop where
  here : other.here = tree.here
  folders : ∀ location, other.find? location = some .folder ↔ tree.find? location = some .folder

namespace SameFolders

variable {tree other last : FileTree}

theorem refl (tree : FileTree) : SameFolders tree tree :=
  ⟨rfl, fun _ => Iff.rfl⟩

theorem trans (first : SameFolders tree other) (second : SameFolders other last) : SameFolders tree last :=
  ⟨second.here.trans first.here, fun location => (second.folders location).trans (first.folders location)⟩

theorem locate_iff (same : SameFolders tree other) (linkless : tree.Linkless) (otherLinkless : other.Linkless)
    (path : String) (location : Location) :
    other.locate true path = .ok (location, .folder) ↔ tree.locate true path = .ok (location, .folder) :=
  ⟨locate_folder_of_folders otherLinkless same.here.symm (fun _ => (same.folders _).mp) path location,
    locate_folder_of_folders linkless same.here (fun _ => (same.folders _).mpr) path location⟩

end SameFolders

structure Changes (tree last : FileTree) (location : Location) (now : Option Entry) : Prop where
  plain : last.Plain
  here : last.here = tree.here
  noFolder : tree.find? location ≠ some .folder
  noneNow : now ≠ some .folder
  find : ∀ other, last.find? other = if other = location then now else tree.find? other

theorem Changes.same_folders {tree last : FileTree} {location : Location} {now : Option Entry}
    (changes : Changes tree last location now) : SameFolders tree last := by
  refine ⟨changes.here, fun other => ?_⟩
  rw [changes.find]
  split
  · next same =>
      subst same
      exact iff_of_false changes.noneNow changes.noFolder
  · exact Iff.rfl

namespace Plain

variable {tree last : FileTree} (plain : tree.Plain) {base name : String} (given : base ≠ "")
  (isName : Path.IsName name)
include plain

theorem put_changes (folder : Location) (isName : Path.IsName name) (onFolder : tree.find? folder = some .folder)
    (noFolder : tree.find? (folder ++ [name]) ≠ some .folder) (content : ByteArray) (executable : Bool) :
    Changes tree (tree.put (folder ++ [name]) (.file content executable)) (folder ++ [name])
      (some (.file content executable)) where
  plain := plain.put folder name isName onFolder noFolder content executable
  here := rfl
  noFolder := noFolder
  noneNow := by simp
  find := tree.find_put _ (by simp) _

theorem remove_changes (location : Location) (below : location ≠ []) (content : ByteArray) (executable : Bool)
    (found : tree.find? location = some (.file content executable)) :
    Changes tree (tree.remove location) location none where
  plain := plain.remove location
  here := rfl
  noFolder := by simp [found]
  noneNow := by simp
  find other := by
    rw [find_remove tree location below]
    by_cases leads : location <+: other
    · rw [if_pos leads]
      split
      · rfl
      · next different =>
          cases stands : tree.find? other with
          | none => rfl
          | some entry =>
              exact absurd (plain.formed.alone location content executable found other leads entry stands) different
    · rw [if_neg leads, if_neg]
      rintro rfl
      exact leads List.prefix_rfl

include given isName

theorem is_present_join_iff :
    tree.isPresent (Path.join base name) ↔
      ∃ folder entry, tree.locate true base = .ok (folder, .folder) ∧ tree.find? (folder ++ [name]) = some entry := by
  rw [isPresent]
  cases located : tree.locate true (Path.join base name) with
  | ok found =>
      obtain ⟨location, entry⟩ := found
      obtain ⟨folder, leads, rfl, stands⟩ :=
        (locate_join_iff plain.linkless base name given isName location entry).mp located
      exact iff_of_true rfl ⟨folder, entry, leads, stands⟩
  | error cause =>
      refine iff_of_false Bool.false_ne_true ?_
      rintro ⟨folder, entry, leads, stands⟩
      have reached : tree.locate true (Path.join base name) = .ok (folder ++ [name], entry) :=
        (locate_join_iff plain.linkless base name given isName _ entry).mpr ⟨folder, leads, rfl, stands⟩
      rw [located] at reached
      cases reached

theorem remove_file_join (removed : tree.removeFile (Path.join base name) = .ok last) :
    ∃ folder, tree.locate true base = .ok (folder, .folder) ∧ Changes tree last (folder ++ [name]) none := by
  rw [removeFile] at removed
  cases located : tree.locate false (Path.join base name) with
  | error cause =>
      rw [located] at removed
      cases removed
  | ok found =>
      obtain ⟨location, entry⟩ := found
      rw [located] at removed
      obtain ⟨folder, leads, rfl, stands⟩ :=
        (locate_join_iff plain.linkless base name given isName location entry).mp located
      cases entry with
      | folder => cases removed
      | link target => exact absurd stands (plain.linkless.find _ target)
      | file content executable =>
          cases removed
          exact ⟨folder, leads, plain.remove_changes _ (by simp) content executable stands⟩

theorem write_bytes_join (content : ByteArray)
    (onFolder : ∀ folder, tree.locate true base = .ok (folder, .folder) → tree.find? folder = some .folder)
    (written : tree.writeBytes (Path.join base name) content = .ok last) :
    ∃ folder executable, tree.locate true base = .ok (folder, .folder) ∧
      Changes tree last (folder ++ [name]) (some (.file content executable)) := by
  rw [writeBytes, walk_join plain.linkless base name given isName] at written
  rw [locate] at onFolder ⊢
  cases walked : tree.walk true base with
  | error cause =>
      rw [walked] at written
      cases written
  | ok spot =>
      rw [walked] at written onFolder
      cases spot with
      | free above => cases written
      | taken folder entry =>
          cases entry with
          | file before executable => cases written
          | link target => cases written
          | folder =>
              have stands := onFolder folder rfl
              simp only [goOn, spotIn] at written
              cases found : tree.find? (folder ++ [name]) with
              | none =>
                  rw [found] at written
                  cases written
                  exact ⟨folder, false, rfl, plain.put_changes folder isName stands (by simp [found]) content false⟩
              | some entry =>
                  rw [found] at written
                  cases entry with
                  | folder => cases written
                  | link target => cases written
                  | file before executable =>
                      cases written
                      exact ⟨folder, executable, rfl,
                        plain.put_changes folder isName stands (by simp [found]) content executable⟩

end Plain

theorem removed_emptied {tree last : FileTree} {path : String} (removed : tree.removeEmptied path = .ok last) :
    ∃ location entry, tree.locate false path = .ok (location, entry) ∧ last = tree.remove location := by
  rw [removeEmptied] at removed
  split at removed
  · cases removed
  · next location entry located =>
      simp only at removed
      split at removed
      · cases removed
      · split at removed
        · cases removed
        · split at removed
          · cases removed
            exact ⟨location, entry, located, rfl⟩
          · cases removed
          · cases removed

theorem Plain.remove_folder {tree : FileTree} (plain : tree.Plain) (path : String) :
    (tree.removeFolder path).2.Plain := by
  rw [removeFolder]
  split
  · exact plain
  · exact plain.remove _
  · exact plain
  · next location located =>
      simp only
      split
      · next removed emptied =>
          obtain ⟨_, _, _, rfl⟩ := removed_emptied emptied
          exact (plain.clear location).remove _
      · exact plain.clear location
      · exact plain.clear location

end FileTree

namespace Discovery

theorem clean_plain (folder : String) (names : List String) (tree : FileTree) (plain : tree.Plain) :
    (clean folder names tree).2.Plain := by
  induction names generalizing tree with
  | nil => exact plain
  | cons name names ih =>
      rw [clean_cons]
      split
      · have kept := plain.remove_folder (Path.join folder name)
        cases removed : tree.removeFolder (Path.join folder name) with
        | mk result last =>
            rw [removed] at kept
            cases result with
            | ok done => exact ih last kept
            | error cause => exact kept
      · exact ih tree plain

theorem versions_named {tree : FileTree} (plain : tree.Plain) (root : String) (pattern : Matcher)
    (found : List String) (listed : versions tree root pattern = .ok found) :
    root ≠ "" ∧ found.Nodup ∧ ∀ version ∈ found, Path.IsName version := by
  obtain ⟨location, leads, holds⟩ := mem_versions_iff tree plain.distinct root pattern found listed
  refine ⟨?_, (sorted_names_strict plain.distinct listed).imp ne_of_lt, fun version member => ?_⟩
  · rintro rfl
    cases leads
  · exact plain.name_of_find location version .folder ((holds version).mp member).1

theorem stripped_leads (count : Nat) (cs : List Char) : stripSuffix count cs <+: cs := by
  induction count generalizing cs with
  | zero => exact List.prefix_rfl
  | succ count ih =>
      rw [stripSuffix]
      split
      · exact (ih _).trans (List.take_prefix _ _)
      · exact List.prefix_rfl

theorem class_leads (file : String) : (classOfFileName file).toList <+: file.toList := by
  rw [classOfFileName, String.toList_ofList]
  exact stripped_leads _ _

theorem classes_named {tree : FileTree} (plain : tree.Plain) (folder : String) (found : List String)
    (known : classes tree folder = .ok found) : ∀ className ∈ found, '/' ∉ className.toList := by
  intro className member
  rw [classes_eq] at known
  split at known
  · cases listed : sortedNames tree folder fun name entry =>
        entry.isFile && classSuffix.isSuffixOf name.toList with
    | error cause =>
        rw [listed] at known
        cases known
    | ok names =>
        rw [listed] at known
        cases known
        obtain ⟨name, isListed, rfl⟩ := List.mem_map.mp member
        obtain ⟨entries, read, entry, inFolder, _⟩ := (mem_sorted_names_iff listed name).mp isListed
        obtain ⟨location, _, rfl⟩ := (read_folder_ok_iff entries).mp read
        have isName := plain.named _ ((tree.mem_children_iff location name entry).mp inFolder) name (by simp)
        exact fun inClass => isName.free ((class_leads name).subset inClass)
  · cases known
    cases member

end Discovery

end BytecodeParity
