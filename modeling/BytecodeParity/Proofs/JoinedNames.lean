import BytecodeParity.Proofs.PathSteps
import BytecodeParity.Proofs.WellFormedTree

set_option autoImplicit false

namespace BytecodeParity.FileTree

section Walk

variable {tree : FileTree} {followLast : Bool} {onLink : Location → List String → Except FileError Spot}

def goOn (next : Location → Except FileError Spot) : Except FileError Spot → Except FileError Spot
  | .ok (.taken folder .folder) => next folder
  | .ok (.taken _ _) => .error .notFolder
  | .ok (.free _) => .error .notFound
  | .error cause => .error cause

-- Whatever links are on the way, names that end without one are followed after the names before them.
theorem walk_names_before {rest : List String} (more : rest ≠ []) {next : Location → Except FileError Spot}
    (ends : ∀ onLink folder, tree.walkNames followLast onLink folder rest = next folder)
    {onLink before : Location → List String → Except FileError Spot}
    (links : ∀ folder names, onLink folder (names ++ rest) = goOn next (before folder names)) (names : List String)
    (start : Location) :
    tree.walkNames followLast onLink start (names ++ rest) = goOn next (tree.walkNames true before start names) := by
  induction names generalizing start with
  | nil => exact ends onLink start
  | cons name names ih =>
      have goesOn : (names ++ rest).isEmpty = false := by simp [more]
      rw [List.cons_append, walkNames, walkNames]
      split
      · exact ih start
      · split
        · exact ih start.dropLast
        · simp only [goesOn, Bool.false_and, Bool.not_true, Bool.and_false, Bool.false_eq_true, if_false]
          cases found : tree.find? (start ++ [name]) with
          | none => cases names <;> rfl
          | some entry =>
              cases entry with
              | folder => exact ih (start ++ [name])
              | file content executable => cases names <;> rfl
              | link target => simp only [← List.append_assoc, links]

theorem walk_links_before {rest : List String} (more : rest ≠ []) {next : Location → Except FileError Spot}
    (ends : ∀ onLink folder, tree.walkNames followLast onLink folder rest = next folder) (links : Nat)
    (names : List String) (start : Location) :
    tree.walkLinks followLast links start (names ++ rest) = goOn next (tree.walkLinks true links start names) := by
  induction links generalizing names start with
  | zero => exact walk_names_before more ends (fun _ _ => rfl) names start
  | succ links ih => exact walk_names_before more ends (fun folder names => ih names folder) names start

def spotIn (tree : FileTree) (name : String) (folder : Location) : Spot :=
  match tree.find? (folder ++ [name]) with
  | none => .free (folder ++ [name])
  | some entry => .taken (folder ++ [name]) entry

theorem walk_names_entry (name : String) (isName : Path.IsName name)
    (onLink : Location → List String → Except FileError Spot) (folder : Location) :
    tree.walkNames false onLink folder [name] = .ok (tree.spotIn name folder) := by
  rw [walkNames, if_neg isName.here, if_neg isName.up, spotIn]
  simp only
  cases found : tree.find? (folder ++ [name]) with
  | none => rfl
  | some entry => cases entry <;> rfl

theorem walk_join_before (base part : String) (given : base ≠ "") (relative : Path.isAbsolute part = false)
    (partGiven : part ≠ "") (more : Path.steps part ≠ []) {next : Location → Except FileError Spot}
    (ends : ∀ onLink folder, tree.walkNames false onLink folder (Path.steps part) = next folder) :
    tree.walk false (Path.join base part) = goOn next (tree.walk true base) := by
  obtain ⟨front, spelled, joined⟩ := Path.steps_join_relative given relative partGiven
  rw [walk, if_neg (Path.join_left_given part given), walk, if_neg given, Path.join_relative_absolute given relative,
    spelled, joined, walk_links_before more ends]
  cases Path.endsInSeparator base with
  | false => simp
  | true =>
      have isStep : ["."] ≠ [] := List.cons_ne_nil _ _
      rw [if_pos rfl, walk_links_before isStep fun _ _ => rfl]
      cases tree.walkLinks true 40 (if Path.isAbsolute base then [] else tree.here) front with
      | error cause => rfl
      | ok spot =>
          cases spot with
          | free location => rfl
          | taken location entry => cases entry <;> rfl

theorem walk_names_linkless {otherLast : Bool} {otherLink : Location → List String → Except FileError Spot}
    (linkless : tree.Linkless) (names : List String) (start : Location) :
    tree.walkNames followLast onLink start names = tree.walkNames otherLast otherLink start names := by
  induction names generalizing start with
  | nil => rfl
  | cons name names ih =>
      rw [walkNames, walkNames]
      split
      · exact ih start
      · split
        · exact ih start.dropLast
        · simp only
          cases found : tree.find? (start ++ [name]) with
          | none => rfl
          | some entry =>
              cases entry with
              | folder => exact ih (start ++ [name])
              | file content executable => rfl
              | link target => exact absurd found (linkless.find _ target)

theorem walk_linkless (linkless : tree.Linkless) (path : String) :
    tree.walk followLast path = tree.walk true path := by
  rw [walk, walk, walkLinks, walkLinks]
  split
  · rfl
  · exact walk_names_linkless linkless _ _

theorem walk_join_entry (base name : String) (given : base ≠ "") (isName : Path.IsName name) :
    tree.walk false (Path.join base name) =
      goOn (fun folder => .ok (tree.spotIn name folder)) (tree.walk true base) :=
  walk_join_before base name given isName.relative isName.given (by simp [isName.steps])
    (isName.steps.symm ▸ walk_names_entry name isName)

theorem walk_join (linkless : tree.Linkless) (base name : String) (given : base ≠ "") (isName : Path.IsName name) :
    tree.walk followLast (Path.join base name) =
      goOn (fun folder => .ok (tree.spotIn name folder)) (tree.walk true base) :=
  calc tree.walk followLast (Path.join base name)
      = tree.walk true (Path.join base name) := walk_linkless linkless _
    _ = tree.walk false (Path.join base name) := (walk_linkless linkless _).symm
    _ = _ := walk_join_entry base name given isName

theorem locate_spot_iff (path base name : String)
    (walked : tree.walk followLast path = goOn (fun folder => .ok (tree.spotIn name folder)) (tree.walk true base))
    (location : Location) (entry : Entry) :
    tree.locate followLast path = .ok (location, entry) ↔
      ∃ folder, tree.locate true base = .ok (folder, .folder) ∧ location = folder ++ [name] ∧
        tree.find? location = some entry := by
  rw [locate, walked, locate]
  cases tree.walk true base with
  | error cause => simp [goOn]
  | ok spot =>
      cases spot with
      | free above => simp [goOn]
      | taken above other =>
          cases other with
          | file content executable => simp [goOn]
          | link target => simp [goOn]
          | folder =>
              simp only [goOn, spotIn]
              cases found : tree.find? (above ++ [name]) with
              | none =>
                  simp only [Except.ok.injEq, Prod.mk.injEq, and_true, exists_eq_left', reduceCtorEq, false_iff]
                  rintro ⟨rfl, stands⟩
                  simp [found] at stands
              | some stands =>
                  simp only [Except.ok.injEq, Prod.mk.injEq, and_true, exists_eq_left']
                  constructor
                  · rintro ⟨rfl, rfl⟩
                    exact ⟨rfl, found⟩
                  · rintro ⟨rfl, same⟩
                    exact ⟨rfl, Option.some.inj (found.symm.trans same)⟩

theorem locate_join_iff (linkless : tree.Linkless) (base name : String) (given : base ≠ "")
    (isName : Path.IsName name) (location : Location) (entry : Entry) :
    tree.locate followLast (Path.join base name) = .ok (location, entry) ↔
      ∃ folder, tree.locate true base = .ok (folder, .folder) ∧ location = folder ++ [name] ∧
        tree.find? location = some entry :=
  locate_spot_iff _ base name (walk_join linkless base name given isName) location entry

-- A name leads to an entry of the folder, on whatever way the folder is found and also when the entry is a link.
theorem locate_entry {base name : String} {folder : Location} (onFolder : tree.locate true base = .ok (folder, .folder))
    (isName : Path.IsName name) (location : Location) (entry : Entry)
    (located : tree.locate false (Path.join base name) = .ok (location, entry)) : location = folder ++ [name] := by
  have given : base ≠ "" := by
    rintro rfl
    cases onFolder
  obtain ⟨above, leads, rfl, _⟩ :=
    (locate_spot_iff _ base name (walk_join_entry base name given isName) location entry).mp located
  rw [onFolder] at leads
  cases leads
  rfl

end Walk

end BytecodeParity.FileTree
