import Mathlib.Data.List.Induction
import Mathlib.Data.List.Nodup
import BytecodeParity.FileTree.Access

set_option autoImplicit false

namespace BytecodeParity.FileTree

structure WellFormed (tree : FileTree) : Prop where
  distinct : (tree.entries.map (·.1)).Nodup
  placed : ∀ row ∈ tree.entries, tree.find? row.1.dropLast = some .folder
  rooted : tree.find? tree.here = some .folder

def Linkless (tree : FileTree) : Prop :=
  ∀ row ∈ tree.entries, ∀ target, row.2 ≠ .link target

theorem mem_of_find (tree : FileTree) (location : Location) (below : location ≠ []) (entry : Entry)
    (found : tree.find? location = some entry) : (location, entry) ∈ tree.entries := by
  rw [find?, if_neg (by simpa using below), List.lookup_eq_some_iff] at found
  obtain ⟨before, after, split, _⟩ := found
  rw [split]
  exact List.mem_append_right _ (List.mem_cons_self ..)

theorem find_iff_mem (tree : FileTree) (distinct : (tree.entries.map (·.1)).Nodup) (location : Location)
    (below : location ≠ []) (entry : Entry) :
    tree.find? location = some entry ↔ (location, entry) ∈ tree.entries := by
  refine ⟨mem_of_find tree location below entry, fun member => ?_⟩
  have stands : (tree.find? location).isSome := by
    rw [find?, if_neg (by simpa using below), List.lookup_isSome_iff]
    exact ⟨_, member, beq_self_eq_true location⟩
  obtain ⟨other, found⟩ := Option.isSome_iff_exists.mp stands
  have same := List.inj_on_of_nodup_map distinct member (mem_of_find tree location below other found) rfl
  rw [found, (Prod.mk.inj same).2]

theorem Linkless.find {tree : FileTree} (linkless : tree.Linkless) (location : Location) (target : String) :
    tree.find? location ≠ some (.link target) := by
  intro found
  by_cases top : location = []
  · subst top
    cases found
  · exact linkless _ (mem_of_find tree location top _ found) target rfl

theorem Linkless.put {tree : FileTree} (linkless : tree.Linkless) (location : Location) (content : ByteArray)
    (executable : Bool) : (tree.put location (.file content executable)).Linkless := by
  intro row member target
  rcases List.mem_append.mp member with old | new
  · exact linkless row (List.mem_filter.mp old).1 target
  · obtain rfl := List.mem_singleton.mp new
    simp

theorem Linkless.remove {tree : FileTree} (linkless : tree.Linkless) (location : Location) :
    (tree.remove location).Linkless :=
  fun row member => linkless row (List.mem_filter.mp member).1

namespace WellFormed

variable {tree : FileTree} (formed : tree.WellFormed)
include formed

theorem parent (location : Location) (entry : Entry) (found : tree.find? location = some entry) :
    tree.find? location.dropLast = some .folder := by
  by_cases top : location = []
  · subst top
    rfl
  · exact formed.placed _ (mem_of_find tree location top entry found)

theorem above (upper lower : Location) (leads : upper <+: lower) (strictly : upper ≠ lower) (entry : Entry)
    (found : tree.find? lower = some entry) : tree.find? upper = some .folder := by
  induction lower using List.reverseRecOn generalizing entry with
  | nil => exact absurd (List.prefix_nil.mp leads) strictly
  | append_singleton front name ih =>
      have onFolder : tree.find? front = some .folder := by simpa using formed.parent _ entry found
      have onTheWay : upper <+: front := (List.prefix_concat_iff.mp leads).resolve_left strictly
      by_cases last : upper = front
      · exact last ▸ onFolder
      · exact ih onTheWay last .folder onFolder

theorem alone (location : Location) (content : ByteArray) (executable : Bool)
    (found : tree.find? location = some (.file content executable)) (lower : Location) (leads : location <+: lower)
    (entry : Entry) (foundLower : tree.find? lower = some entry) : lower = location := by
  by_contra different
  have folder := formed.above location lower leads (Ne.symm different) entry foundLower
  rw [found] at folder
  cases folder

theorem put (folder : Location) (name : String) (entry : Entry) (onFolder : tree.find? folder = some .folder)
    (noFolder : tree.find? (folder ++ [name]) ≠ some .folder) : (tree.put (folder ++ [name]) entry).WellFormed := by
  have distinct : ((tree.put (folder ++ [name]) entry).entries.map (·.1)).Nodup := by
    rw [FileTree.put, List.map_append, List.nodup_append]
    refine ⟨formed.distinct.sublist (List.filter_sublist.map _), by simp, ?_⟩
    intro other old last new same
    obtain ⟨row, member, rfl⟩ := List.mem_map.mp old
    have different := (List.mem_filter.mp member).2
    obtain rfl : last = folder ++ [name] := by simpa using new
    simp [same] at different
  -- A folder is not the location itself and so it is still there.
  have folders : ∀ location, tree.find? location = some .folder →
      (tree.put (folder ++ [name]) entry).find? location = some .folder := by
    intro location stands
    by_cases top : location = []
    · subst top
      rfl
    · have different : location ≠ folder ++ [name] := fun same => noFolder (same ▸ stands)
      rw [find_iff_mem _ distinct location top]
      refine List.mem_append_left _ (List.mem_filter.mpr ⟨mem_of_find tree location top _ stands, ?_⟩)
      simpa using different
  refine { distinct := distinct, placed := ?_, rooted := folders _ formed.rooted }
  intro row member
  rcases List.mem_append.mp member with old | new
  · exact folders _ (formed.placed row (List.mem_filter.mp old).1)
  · obtain rfl := List.mem_singleton.mp new
    simpa using folders folder onFolder

theorem remove (location : Location) (outside : ¬ location <+: tree.here) : (tree.remove location).WellFormed := by
  have distinct : ((tree.remove location).entries.map (·.1)).Nodup :=
    formed.distinct.sublist (List.filter_sublist.map _)
  have folders : ∀ other, ¬ location <+: other → tree.find? other = some .folder →
      (tree.remove location).find? other = some .folder := by
    intro other apart stands
    by_cases top : other = []
    · subst top
      rfl
    · rw [find_iff_mem _ distinct other top]
      refine List.mem_filter.mpr ⟨mem_of_find tree other top _ stands, ?_⟩
      rw [← List.isPrefixOf_iff_prefix, Bool.not_eq_true] at apart
      rw [apart, Bool.not_false]
  refine { distinct := distinct, placed := ?_, rooted := folders _ outside formed.rooted }
  intro row member
  obtain ⟨old, apart⟩ := List.mem_filter.mp member
  refine folders _ (fun leads => ?_) (formed.placed row old)
  have below := leads.trans (List.dropLast_prefix _)
  rw [← List.isPrefixOf_iff_prefix] at below
  simp [below] at apart

theorem remove_file (location : Location) (content : ByteArray) (executable : Bool)
    (found : tree.find? location = some (.file content executable)) : (tree.remove location).WellFormed := by
  refine formed.remove location fun leads => ?_
  have rooted := formed.rooted
  rw [formed.alone location content executable found tree.here leads .folder rooted, found] at rooted
  cases rooted

end WellFormed

section Walk

variable {tree : FileTree} {followLast : Bool} {onLink : Location → List String → Except FileError Spot}

structure EndsAt (tree : FileTree) (folder : Location) (name : String) (spot : Spot) : Prop where
  onFolder : tree.find? folder = some .folder
  ends : match tree.find? (folder ++ [name]) with
    | none => spot = .free (folder ++ [name])
    | some entry => spot = .taken (folder ++ [name]) entry

theorem walk_names_last (formed : tree.WellFormed) (linkless : tree.Linkless) (name : String) (here : name ≠ ".")
    (up : name ≠ "..") (names : List String) (start : Location) (stands : tree.find? start = some .folder)
    (spot : Spot) (walked : tree.walkNames followLast onLink start (names ++ [name]) = .ok spot) :
    ∃ folder, tree.EndsAt folder name spot := by
  induction names generalizing start with
  | nil =>
      refine ⟨start, stands, ?_⟩
      rw [List.nil_append, walkNames, if_neg here, if_neg up] at walked
      simp only at walked
      cases found : tree.find? (start ++ [name]) with
      | none =>
          rw [found] at walked
          cases walked
          rfl
      | some entry =>
          rw [found] at walked
          cases entry with
          | folder =>
              cases walked
              rfl
          | file content executable =>
              cases walked
              rfl
          | link target => exact absurd found (linkless.find _ target)
  | cons next names ih =>
      -- Another name follows, so the walk only goes on at folders.
      have more : (names ++ [name]).isEmpty = false := by simp
      rw [List.cons_append, walkNames] at walked
      split at walked
      · exact ih start stands walked
      · split at walked
        · exact ih start.dropLast (formed.parent start .folder stands) walked
        · simp only at walked
          cases found : tree.find? (start ++ [next]) with
          | none =>
              rw [found] at walked
              simp [more] at walked
          | some entry =>
              rw [found] at walked
              cases entry with
              | folder => exact ih (start ++ [next]) found walked
              | file content executable => simp [more] at walked
              | link target => exact absurd found (linkless.find _ target)

-- A way to a folder goes through folders only, so it is the same way in a tree that has them too.
theorem walk_names_folder {other : FileTree} {otherLink : Location → List String → Except FileError Spot}
    (linkless : tree.Linkless)
    (folders : ∀ location, tree.find? location = some .folder → other.find? location = some .folder)
    (names : List String) (start location : Location)
    (walked : tree.walkNames followLast onLink start names = .ok (.taken location .folder)) :
    other.walkNames followLast otherLink start names = .ok (.taken location .folder) := by
  induction names generalizing start with
  | nil => exact walked
  | cons name names ih =>
      rw [walkNames] at walked ⊢
      split
      · next here =>
          rw [if_pos here] at walked
          exact ih start walked
      · next here =>
          rw [if_neg here] at walked
          split
          · next up =>
              rw [if_pos up] at walked
              exact ih start.dropLast walked
          · next up =>
              rw [if_neg up] at walked
              simp only at walked ⊢
              cases found : tree.find? (start ++ [name]) with
              | none =>
                  rw [found] at walked
                  cases names <;> cases walked
              | some entry =>
                  rw [found] at walked
                  cases entry with
                  | folder =>
                      rw [folders _ found]
                      exact ih (start ++ [name]) walked
                  | file content executable => cases names <;> cases walked
                  | link target => exact absurd found (linkless.find _ target)

end Walk

end BytecodeParity.FileTree
