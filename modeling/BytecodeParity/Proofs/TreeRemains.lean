import BytecodeParity.Proofs.PlainTree

set_option autoImplicit false

namespace BytecodeParity

namespace FileTree

def Below (folder location : Location) : Prop :=
  folder <+: location ∧ location ≠ folder

theorem Below.deeper {folder place location : Location} (below : Below folder place) (leads : place <+: location) :
    Below folder location := by
  refine ⟨below.1.trans leads, ?_⟩
  rintro rfl
  exact below.2 (leads.eq_of_length_le below.1.length_le)

theorem below_append (folder : Location) (name : String) : Below folder (folder ++ [name]) :=
  ⟨List.prefix_append _ _, by simp⟩

structure LeftOf (tree : FileTree) (places : Location → Prop) (left : FileTree) : Prop where
  here : left.here = tree.here
  stood : ∀ location entry, left.find? location = some entry → tree.find? location = some entry
  kept : ∀ location, (∀ place, places place → ¬ place <+: location) → left.find? location = tree.find? location

namespace LeftOf

variable {tree left last : FileTree} {places : Location → Prop}

theorem refl (tree : FileTree) (places : Location → Prop) : LeftOf tree places tree :=
  ⟨rfl, fun _ _ stands => stands, fun _ _ => rfl⟩

theorem trans (first : LeftOf tree places left) (second : LeftOf left places last) : LeftOf tree places last where
  here := second.here.trans first.here
  stood location entry stands := first.stood location entry (second.stood location entry stands)
  kept location apart := (second.kept location apart).trans (first.kept location apart)

theorem mono {more : Location → Prop} (part : LeftOf tree places left) (within : ∀ place, places place → more place) :
    LeftOf tree more left :=
  { part with kept := fun location apart => part.kept location fun place isPlace => apart place (within place isPlace) }

theorem gone (part : LeftOf tree places left) (location : Location) (missing : tree.find? location = none) :
    left.find? location = none := by
  cases stands : left.find? location with
  | none => rfl
  | some entry =>
      rw [part.stood location entry stands] at missing
      cases missing

theorem of_filter (tree : FileTree) (keep : Location → Bool)
    (gone : ∀ location, keep location = false → ∃ place, places place ∧ place <+: location) :
    LeftOf tree places { tree with entries := tree.entries.filter fun row => keep row.1 } := by
  have found : ∀ location : Location, location ≠ [] →
      find? { tree with entries := tree.entries.filter fun row => keep row.1 } location =
        if keep location then tree.find? location else none := by
    intro location below
    rw [find_below _ location below, find_below tree location below, lookup_restricted]
  refine ⟨rfl, fun location entry stands => ?_, fun location apart => ?_⟩
  · by_cases top : location = []
    · subst top
      exact stands
    · rw [found location top] at stands
      exact (Option.ite_none_right_eq_some.mp stands).2
  · by_cases top : location = []
    · subst top
      rfl
    · cases kept : keep location with
      | true => rw [found location top, if_pos kept]
      | false =>
          obtain ⟨place, isPlace, leads⟩ := gone location kept
          exact absurd leads (apart place isPlace)

end LeftOf

theorem remove_left (tree : FileTree) (place : Location) {places : Location → Prop} (isPlace : places place) :
    LeftOf tree places (tree.remove place) :=
  LeftOf.of_filter tree (fun location => !place.isPrefixOf location) fun _ gone =>
    ⟨place, isPlace, List.isPrefixOf_iff_prefix.mp (by simpa using gone)⟩

theorem clear_left (tree : FileTree) (place : Location) {places : Location → Prop} (isPlace : places place) :
    LeftOf tree places (tree.clear place) :=
  LeftOf.of_filter tree (fun location => location = place || !place.isPrefixOf location) fun _ gone => by
    rw [Bool.or_eq_false_iff, Bool.not_eq_false'] at gone
    exact ⟨place, isPlace, List.isPrefixOf_iff_prefix.mp gone.2⟩

theorem cleared_below (tree : FileTree) (place location : Location) (below : Below place location) :
    (tree.clear place).find? location = none := by
  have top : location ≠ [] := by
    rintro rfl
    exact below.2 (List.prefix_nil.mp below.1).symm
  rw [find_below _ location top, clear,
    lookup_restricted tree.entries fun any => any = place || !place.isPrefixOf any, if_neg]
  simp [below.2, List.isPrefixOf_iff_prefix.mpr below.1]

section Walk

variable {tree left : FileTree} {followLast : Bool}

theorem walk_names_stood (stood : ∀ location entry, left.find? location = some entry → tree.find? location = some entry)
    {leftLink onLink : Location → List String → Except FileError Spot}
    (links : ∀ folder rest location entry, leftLink folder rest = .ok (.taken location entry) →
      onLink folder rest = .ok (.taken location entry))
    (names : List String) (start location : Location) (entry : Entry)
    (walked : left.walkNames followLast leftLink start names = .ok (.taken location entry)) :
    tree.walkNames followLast onLink start names = .ok (.taken location entry) := by
  induction names generalizing start with
  | nil => exact walked
  | cons name names ih =>
      rw [walkNames] at walked ⊢
      split
      · next here =>
          rw [if_pos here] at walked
          exact ih start walked
      · next here =>
          rw [if_neg here] at walked
          split
          · next up =>
              rw [if_pos up] at walked
              exact ih start.dropLast walked
          · next up =>
              rw [if_neg up] at walked
              simp only at walked ⊢
              cases found : left.find? (start ++ [name]) with
              | none =>
                  -- Where nothing is left the walk takes no entry, whatever stands there in the whole tree.
                  rw [found] at walked
                  cases names <;> cases walked
              | some stands =>
                  rw [found] at walked
                  rw [stood _ _ found]
                  cases stands with
                  | folder => exact ih (start ++ [name]) walked
                  | file content executable => exact walked
                  | link target =>
                      simp only at walked ⊢
                      split
                      · next last =>
                          rw [if_pos last] at walked
                          exact walked
                      · next goesOn =>
                          rw [if_neg goesOn] at walked
                          exact links _ _ location entry walked

theorem walk_links_stood (stood : ∀ location entry, left.find? location = some entry → tree.find? location = some entry)
    (links : Nat) (names : List String) (start location : Location) (entry : Entry)
    (walked : left.walkLinks followLast links start names = .ok (.taken location entry)) :
    tree.walkLinks followLast links start names = .ok (.taken location entry) := by
  induction links generalizing names start location entry with
  | zero => exact walk_names_stood stood (fun _ _ _ _ failed => by cases failed) names start location entry walked
  | succ links ih => exact walk_names_stood stood (fun folder rest => ih rest folder) names start location entry walked

theorem LeftOf.locate {places : Location → Prop} (part : LeftOf tree places left) (path : String)
    (location : Location) (entry : Entry) (located : left.locate followLast path = .ok (location, entry)) :
    tree.locate followLast path = .ok (location, entry) := by
  rw [FileTree.locate] at located ⊢
  cases walked : left.walk followLast path with
  | error cause =>
      rw [walked] at located
      cases located
  | ok spot =>
      rw [walked] at located
      cases spot with
      | free above => cases located
      | taken above stands =>
          cases located
          have otherWalked : tree.walk followLast path = .ok (.taken location entry) := by
            rw [walk] at walked ⊢
            split
            · next empty =>
                rw [if_pos empty] at walked
                cases walked
            · next given =>
                rw [if_neg given, part.here] at walked
                exact walk_links_stood part.stood _ _ _ location entry walked
          rw [otherWalked]

theorem LeftOf.is_folder {places : Location → Prop} (part : LeftOf tree places left) (path : String)
    (isFolder : left.isFolder path) : tree.isFolder path := by
  rw [FileTree.isFolder] at isFolder ⊢
  cases located : left.locate true path with
  | error cause =>
      rw [located] at isFolder
      cases isFolder
  | ok found =>
      obtain ⟨location, entry⟩ := found
      rw [located] at isFolder
      rw [part.locate path location entry located]
      exact isFolder

end Walk

section Removal

variable {tree : FileTree} {places : Location → Prop}

theorem remove_emptied_left (path : String) (removed : FileTree) (done : tree.removeEmptied path = .ok removed)
    (isPlace : ∀ location entry, tree.locate false path = .ok (location, entry) → places location) :
    LeftOf tree places removed := by
  obtain ⟨location, entry, located, rfl⟩ := removed_emptied done
  exact remove_left tree location (isPlace location entry located)

theorem remove_folder_left (path : String)
    (isPlace : ∀ location entry, tree.locate false path = .ok (location, entry) → places location) :
    LeftOf tree places (tree.removeFolder path).2 := by
  rw [removeFolder]
  split
  · exact .refl tree places
  · next location target located => exact remove_left tree location (isPlace location _ located)
  · exact .refl tree places
  · next location located =>
      have emptied := clear_left tree location (isPlace location _ located)
      simp only
      split
      · next removed done =>
          refine emptied.trans (remove_emptied_left path removed done fun other entry again => ?_)
          exact isPlace other entry (emptied.locate path other entry again)
      · exact emptied
      · exact emptied

theorem remove_folder_empties (path : String) (place : Location)
    (located : tree.locate false path = .ok (place, .folder)) (location : Location) (below : Below place location) :
    (tree.removeFolder path).2.find? location = none := by
  have cleared := cleared_below tree place location below
  rw [removeFolder, located]
  simp only
  split
  · next removed done =>
      have part : LeftOf (tree.clear place) (fun _ => True) removed :=
        remove_emptied_left path removed done fun _ _ _ => trivial
      exact part.gone location cleared
  · exact cleared
  · exact cleared

end Removal

end FileTree

end BytecodeParity
