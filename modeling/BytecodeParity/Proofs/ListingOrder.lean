import BytecodeParity.Proofs.PlannedRun

set_option autoImplicit false

namespace BytecodeParity

namespace Listing

variable {one other listing : Listing} {tree : FileTree} {location : Location}

def SameRows (one other : Listing) : Prop :=
  ∀ tree folder, (one.rows tree folder).Perm (other.rows tree folder)

theorem SameRows.sorted_names (same : one.SameRows other) : one.sortedNames = other.sortedNames := by
  funext tree folder keep
  rw [sortedNames, sortedNames, readFolder, readFolder]
  cases tree.locate true folder with
  | error cause => rfl
  | ok found =>
      obtain ⟨location, entry⟩ := found
      cases entry with
      | folder =>
          have kept := ((same tree location).filter fun row => keep row.1.reading row.2).map fun row => row.1.reading
          exact congrArg Except.ok (Discovery.sort_names_of_perm _ _ kept)
      | file content executable => rfl
      | link target => rfl

theorem SameRows.versions (same : one.SameRows other) : one.versions = other.versions := by
  funext tree root pattern
  rw [Listing.versions, same.sorted_names, Listing.versions]

theorem SameRows.classes (same : one.SameRows other) : one.classes = other.classes := by
  funext tree folder
  rw [Listing.classes, same.sorted_names, Listing.classes]

theorem SameRows.archive (same : one.SameRows other) : one.archive? = other.archive? := by
  funext tree folder pattern
  rw [archive?, same.sorted_names, archive?]

def accepted (listing : Listing) (tree : FileTree) (location : Location) (pattern : Matcher) : List String :=
  listing.kept tree location fun name entry => entry.isFolder && pattern.accepts name

def textRow? (row : EntryName × Entry) : Option (String × Entry) :=
  match row.1 with
  | .text name => some (name, row.2)
  | .bytes _ _ => none

-- The entries that are listed under a text are the entries of the tree.
def ListsTexts (listing : Listing) (tree : FileTree) : Prop :=
  ∀ folder, ((listing.rows tree folder).filterMap textRow?).Perm (tree.children folder)

-- No folder whose name is no text is accepted for what its name reads as.
def AcceptsTexts (listing : Listing) (tree : FileTree) (location : Location) (pattern : Matcher) : Prop :=
  ∀ content stray entry, (.bytes content stray, entry) ∈ listing.rows tree location → entry.isFolder →
    ¬ pattern.accepts (Text.decode content)

theorem mem_text_rows_iff (rows : List (EntryName × Entry)) (name : String) (entry : Entry) :
    (name, entry) ∈ rows.filterMap textRow? ↔ (.text name, entry) ∈ rows := by
  rw [List.mem_filterMap]
  constructor
  · rintro ⟨⟨rowName, rowEntry⟩, member, isText⟩
    cases rowName with
    | text given =>
        cases isText
        exact member
    | bytes content stray => cases isText
  · exact fun member => ⟨_, member, rfl⟩

theorem text_rows_of_plain : ((plain.rows tree location).filterMap textRow?) = tree.children location := by
  rw [plain, List.filterMap_map]
  exact List.filterMap_some

theorem kept_texts (pattern : Matcher) (rows : List (EntryName × Entry))
    (texts : ∀ content stray entry, (.bytes content stray, entry) ∈ rows → entry.isFolder →
      ¬ pattern.accepts (Text.decode content)) :
    ((rows.filter fun row => row.2.isFolder && pattern.accepts row.1.reading).map fun row => row.1.reading) =
      ((rows.filterMap textRow?).filter fun row => row.2.isFolder && pattern.accepts row.1).map (·.1) := by
  induction rows with
  | nil => rfl
  | cons row rows ih =>
      obtain ⟨name, entry⟩ := row
      have later := ih fun content stray entry member => texts content stray entry (List.mem_cons_of_mem _ member)
      cases name with
      | text name =>
          have isText : textRow? (.text name, entry) = some (name, entry) := rfl
          rw [List.filterMap_cons_some isText]
          by_cases kept : (entry.isFolder && pattern.accepts name) = true
          · rw [List.filter_cons_of_pos (by exact kept), List.filter_cons_of_pos (by exact kept), List.map_cons,
              List.map_cons, later]
            rfl
          · rw [List.filter_cons_of_neg (by exact kept), List.filter_cons_of_neg (by exact kept), later]
      | bytes content stray =>
          have refused : (entry.isFolder && pattern.accepts (Text.decode content)) ≠ true := fun kept =>
            texts content stray entry List.mem_cons_self (Bool.and_eq_true_iff.mp kept).1 (Bool.and_eq_true_iff.mp kept).2
          rw [List.filterMap_cons_none rfl, List.filter_cons_of_neg (by exact refused), later]

theorem accepted_of_texts (pattern : Matcher) (lists : listing.ListsTexts tree)
    (texts : listing.AcceptsTexts tree location pattern) :
    (listing.accepted tree location pattern).Perm
      (((tree.children location).filter fun row => row.2.isFolder && pattern.accepts row.1).map (·.1)) := by
  rw [accepted, kept, kept_texts pattern _ texts]
  exact ((lists location).filter _).map _

-- A folder whose name is no text is told from the others by nothing but its place in the list: it adds a
-- version that no folder has, or one that another folder has already given.
theorem versions_exact_iff (pattern : Matcher) (distinct : (tree.entries.map (·.1)).Nodup)
    (lists : listing.ListsTexts tree) (found : List String)
    (sorted : found = Discovery.sortNames (listing.accepted tree location pattern)) :
    (found.Pairwise (· < ·) ∧
        ∀ name, name ∈ found ↔ tree.find? (location ++ [name]) = some .folder ∧ pattern.accepts name) ↔
      listing.AcceptsTexts tree location pattern := by
  have same : found.Perm (listing.accepted tree location pattern) := sorted ▸ Discovery.sort_names_perm _
  have folders : ∀ name, tree.find? (location ++ [name]) = some .folder ↔ (name, .folder) ∈ tree.children location := by
    intro name
    rw [FileTree.find_iff_mem tree distinct _ (by simp), FileTree.mem_children_iff]
  constructor
  · rintro ⟨ascending, holds⟩ content stray entry member isFolder accepts
    -- The text that the name reads as would be that of a folder of the tree, and would come a second time.
    have unlike := List.inj_on_of_nodup_map (same.nodup_iff.mp (ascending.imp ne_of_lt))
    have kept : (EntryName.bytes content stray, entry) ∈ (listing.rows tree location).filter
        fun row => row.2.isFolder && pattern.accepts row.1.reading :=
      List.mem_filter.mpr ⟨member, Bool.and_eq_true_iff.mpr ⟨isFolder, accepts⟩⟩
    have isFound : Text.decode content ∈ found := same.mem_iff.mpr (List.mem_map_of_mem kept)
    have isRow := (lists location).mem_iff.mpr ((folders _).mp ((holds _).mp isFound).1)
    have keptToo : (EntryName.text (Text.decode content), Entry.folder) ∈ (listing.rows tree location).filter
        fun row => row.2.isFolder && pattern.accepts row.1.reading :=
      List.mem_filter.mpr ⟨(mem_text_rows_iff _ _ _).mp isRow, Bool.and_eq_true_iff.mpr ⟨rfl, accepts⟩⟩
    cases unlike kept keptToo rfl
  · intro texts
    have names := same.trans (accepted_of_texts pattern lists texts)
    have once : found.Nodup :=
      names.nodup_iff.mpr ((tree.children_distinct distinct location).sublist (List.filter_sublist.map _))
    refine ⟨?_, fun name => ?_⟩
    · have ascending : found.Pairwise (· ≤ ·) := sorted ▸ Discovery.sort_names_ascending _
      exact (ascending.and once).imp fun pair => lt_of_le_of_ne pair.1 pair.2
    · rw [names.mem_iff, folders]
      simp only [List.mem_map, List.mem_filter, Prod.exists, Bool.and_eq_true, exists_and_right, exists_eq_right]
      constructor
      · rintro ⟨entry, member, isFolder, accepts⟩
        cases entry with
        | folder => exact ⟨member, accepts⟩
        | file content executable => cases isFolder
        | link target => cases isFolder
      · rintro ⟨member, accepts⟩
        exact ⟨.folder, member, rfl, accepts⟩

end Listing

structure Listings.SameRows (one other : Listings) : Prop where
  versions : one.versions.SameRows other.versions
  archives : ∀ version, (one.archives version).SameRows (other.archives version)
  classes : one.classes.SameRows other.classes

namespace Verification

variable (verification : Verification) {one other : Listings}

theorem extract_versions_same (same : one.SameRows other) (pattern : Matcher) (versions : List String) :
    extractVersions verification one pattern versions = extractVersions verification other pattern versions := by
  induction versions with
  | nil => rfl
  | cons version versions ih =>
      have archive := (same.archives version).archive
      simp only [extractVersions, extractVersion, archive, ih]

theorem prepare_same (same : one.SameRows other) : verification.prepare one = verification.prepare other := by
  unfold prepare
  simp only [same.versions.versions, same.classes.classes, extract_versions_same verification same]

theorem prepared_versions {listings : Listings} {progress reached : Progress} {versions classes : List String}
    (prepared : (verification.prepare listings).run progress = (.ok (versions, classes), reached)) :
    ∃ patterns, verification.patterns = .ok patterns ∧
      listings.versions.versions progress.tree verification.root patterns.version = .ok versions := by
  rw [prepare_phases] at prepared
  simp only [Job.bind_ok_iff, Job.ask_ok_iff, Job.note_ok_iff, accessing_ok_iff, map_error_ok_iff] at prepared
  obtain ⟨patterns, _, ⟨valid, rfl⟩, found, _, ⟨listed, rfl⟩, _, _, rfl, rest⟩ := prepared
  cases found with
  | nil => exact absurd rest (Job.throw_not_ok _ _ _ _)
  | cons first others =>
      simp only [preparing, Job.bind_ok_iff, Job.ask_ok_iff, Job.note_ok_iff] at rest
      obtain ⟨_, _, _, known, _, _, _, _, _, rest⟩ := rest
      split at rest
      · exact absurd rest (Job.throw_not_ok _ _ _ _)
      · simp only [Job.bind_ok_iff, Job.pure_ok_iff] at rest
        obtain ⟨_, _, _, same, _⟩ := rest
        cases same
        exact ⟨patterns, valid, listed⟩

theorem reported_versions {listings : Listings} {now : String} {tree : FileTree} {report : Report}
    (reported : (verification.runListed listings now tree).1 = .ok report) :
    ∃ patterns, verification.patterns = .ok patterns ∧
      listings.versions.versions tree verification.root patterns.version = .ok report.versions := by
  rw [run_listed_eq] at reported
  cases prepared : (verification.prepare listings).run ⟨tree, [], []⟩ with
  | mk result reached =>
      rw [prepared] at reported
      cases result with
      | error error => cases reported
      | ok found =>
          simp only [compare_classes_run] at reported
          obtain ⟨same, _⟩ := concluded_success_iff (read_pair_faithful verification reached.tree) _ _ now .perClass
            found.1 _ report reported
          rw [same]
          exact prepared_versions verification prepared

end Verification

def astray : Listing where
  rows := fun tree folder => Listing.plain.rows tree folder ++
    if folder = ["r"] then [(.bytes ⟨#[0x35, 0xff]⟩ (by decide +kernel), .folder),
      (.bytes ⟨#[0x35, 0xfe]⟩ (by decide +kernel), .folder)] else []

def backwards : Listing :=
  ⟨fun tree folder => (Listing.plain.rows tree folder).reverse⟩

theorem backwards_same : Listings.SameRows ⟨backwards, fun _ => backwards, backwards⟩ .plain where
  versions := fun _ _ => List.reverse_perm _
  archives := fun _ _ _ => List.reverse_perm _
  classes := fun _ _ => List.reverse_perm _

theorem backwards_lists_texts (tree : FileTree) : backwards.ListsTexts tree := by
  intro folder
  rw [backwards, List.filterMap_reverse, Listing.text_rows_of_plain]
  exact List.reverse_perm _

theorem backwards_accepts_texts (tree : FileTree) (location : Location) (pattern : Matcher) :
    backwards.AcceptsTexts tree location pattern := by
  intro content stray entry member
  simp [backwards, Listing.plain] at member

def linkedTree : FileTree :=
  ⟨[(["r"], .folder), (["r", "3"], .folder), (["r", "3", "b"], .ofText ""), (["r", "3", "a"], .ofText ""),
    (["r", "2"], .link "3"), (["r", "4"], .ofText ""), (["r", "1"], .folder), (["r", "1", "a"], .ofText "")], []⟩

example : astray.versions linkedTree "/r" ⟨fun _ => true⟩ = .ok ["1", "3", "5\uFFFD", "5\uFFFD"] := by
  decide +kernel

def changingVerification : Verification :=
  { unpackingVerification with
    tools := ⟨unpackingVerification.tools.extract, fun folder _ tree =>
      (.ok ⟨methodCalling (if folder = "/r/3" then "n/Y" else "n/X"), listedMethod⟩, tree), "tar", Pattern.library⟩ }

end BytecodeParity
