import BytecodeParity.Proofs.ExpressionRules
import BytecodeParity.Proofs.SortedNames

set_option autoImplicit false

namespace BytecodeParity

namespace ExpressionRules

variable {rules : ExpressionRules} {library : ExpressionLibrary} {source : String}

def Strays (rules : ExpressionRules) (source : String) : Prop :=
  ∃ inner behind, source = inner ++ ")" ++ behind ∧ rules.Closed inner

def MatchesWhole (rules : ExpressionRules) (source name : String) : Prop :=
  rules.Spans source name 0 name.length

theorem not_strays (unclosing : ')' ∉ source.toList) : ¬ rules.Strays source := by
  rintro ⟨inner, behind, rfl, _⟩
  simp at unclosing

theorem stray_no_expression (laws : rules.Describe library) (strays : rules.Strays source) :
    ¬ rules.IsExpression source := by
  obtain ⟨inner, behind, rfl, closed⟩ := strays
  exact laws.unopened inner behind closed

theorem anchored_grouped (source : String) :
    Config.anchored source = "^" ++ ("(?:" ++ source ++ ")") ++ "$" := by
  rw [← String.toList_inj]
  simp [Config.anchored]

theorem closed_of_anchored (laws : rules.Describe library) (inside : ¬ rules.Strays source)
    (valid : rules.IsExpression (Config.anchored source)) : rules.Closed source := by
  rw [Config.anchored, String.append_assoc] at valid
  obtain ⟨inner, behind, same, closed⟩ := laws.opened _ valid
  have letters : source.toList ++ [')', '$'] = inner.toList ++ ')' :: behind.toList := by
    simpa using congrArg String.toList same
  -- The group is closed by the parenthesis put behind the text, or by one in the text.
  rcases List.append_eq_append_iff.mp letters with ⟨more, isInner, ends⟩ | ⟨more, isSource, ends⟩
  · cases more with
    | nil =>
        obtain rfl : inner = source := String.toList_inj.mp (by simpa using isInner)
        exact closed
    | cons c more => cases more <;> simp at ends
  · cases more with
    | nil =>
        obtain rfl : source = inner := String.toList_inj.mp (by simpa using isSource)
        exact closed
    | cons c more =>
        obtain ⟨rfl, _⟩ := List.cons.inj ends
        refine absurd ⟨inner, String.ofList more, ?_, closed⟩ inside
        rw [← String.toList_inj, isSource]
        simp

theorem anchored_item (laws : rules.Describe library) (closed : rules.Closed source) :
    rules.IsExpression (Config.anchored source) := by
  rw [anchored_grouped]
  exact laws.item _ (laws.finish _ (laws.start _ (laws.group source closed)))

theorem anchored_spans (laws : rules.Describe library) (closed : rules.Closed source) (name : String)
    (first last : Nat) :
    rules.Spans (Config.anchored source) name first last ↔
      last = name.length ∧ first = 0 ∧ rules.Spans source name first last := by
  have group := laws.group source closed
  rw [anchored_grouped, laws.finish_spans _ (laws.start _ group), laws.start_spans _ group,
    laws.group_spans source closed]

theorem accepts_iff_whole (laws : rules.Describe library) (inside : ¬ rules.Strays source) {found : Matcher}
    (compiled : library.compile (Config.anchored source) = .ok found) (name : String) :
    found.accepts name ↔ rules.MatchesWhole source name := by
  have valid := ((laws.compiles _).mp ⟨found, compiled⟩).1
  simp only [laws.finds _ found compiled name, anchored_spans laws (closed_of_anchored laws inside valid)]
  constructor
  · rintro ⟨first, last, rfl, rfl, spans⟩
    exact spans
  · exact fun spans => ⟨0, name.length, rfl, rfl, spans⟩

end ExpressionRules

namespace Listing

variable {listing : Listing} {tree : FileTree} {folder : String} {pattern : Matcher}

theorem kept_fits {keep : String → Entry → Bool} {names : List String}
    (listed : listing.sortedNames tree folder keep = .ok names) {name : String} (member : name ∈ names) :
    ∃ entry, keep name entry := by
  obtain ⟨location, _, rfl⟩ := sorted_names_ok_iff.mp listed
  obtain ⟨row, isKept, rfl⟩ := List.mem_map.mp ((Discovery.sort_names_perm _).mem_iff.mp member)
  exact ⟨row.2, (List.mem_filter.mp isKept).2⟩

theorem versions_fit {found : List String} (listed : listing.versions tree folder pattern = .ok found) :
    ∀ name ∈ found, pattern.accepts name := by
  intro name member
  obtain ⟨entry, isKept⟩ := kept_fits listed member
  exact (Bool.and_eq_true_iff.mp isKept).2

theorem archive_fits {path : String} (found : listing.archive? tree folder pattern = .ok (some path)) :
    ∃ name, path = Path.join folder name ∧ pattern.accepts name := by
  obtain ⟨names, listed, isFirst⟩ := archive_ok_iff.mp found
  cases names with
  | nil => cases isFirst
  | cons name names =>
      cases isFirst
      obtain ⟨entry, isKept⟩ := kept_fits listed List.mem_cons_self
      exact ⟨name, rfl, (Bool.and_eq_true_iff.mp isKept).2⟩

end Listing

namespace Config

theorem compile_pattern_ok_iff (library : ExpressionLibrary) (field source : String) (found : Matcher) :
    compilePattern library field source = .ok found ↔ library.compile (anchored source) = .ok found := by
  rw [compilePattern]
  cases library.compile (anchored source) <;> simp

theorem patterns_by_ok_iff (library : ExpressionLibrary) (config : Config) (found : NamePatterns) :
    config.patternsBy library = .ok found ↔
      library.compile (anchored config.versionPattern) = .ok found.version ∧
        library.compile (anchored config.archivePattern) = .ok found.archive := by
  rw [← compile_pattern_ok_iff library "version_pattern", ← compile_pattern_ok_iff library "archive_pattern", patternsBy]
  cases compilePattern library "version_pattern" config.versionPattern with
  | error bad => simp
  | ok version =>
      cases compilePattern library "archive_pattern" config.archivePattern with
      | error bad => simp
      | ok archive =>
          obtain ⟨isVersion, isArchive⟩ := found
          simp

-- Texts that would close the group around them aside, a text is accepted just when it is an expression that ends
-- outside a comment and stays within the limits, and it is held against whole names.
theorem patterns_match_whole (config : Config) (library : ExpressionLibrary) (rules : ExpressionRules)
    (laws : rules.Describe library) :
    ((∃ found, config.patternsBy library = .ok found) ↔
      ∀ source ∈ [config.versionPattern, config.archivePattern],
        rules.IsExpression (anchored source) ∧ rules.Fits (anchored source)) ∧
    (∀ source, rules.Strays source → ¬ rules.IsExpression source) ∧
    (∀ source, ¬ rules.Strays source → (rules.IsExpression (anchored source) ↔ rules.Closed source)) ∧
    ∀ found, config.patternsBy library = .ok found →
      (¬ rules.Strays config.versionPattern →
        (∀ name, found.version.accepts name ↔ rules.MatchesWhole config.versionPattern name) ∧
        ∀ (listing : Listing) tree root versions, listing.versions tree root found.version = .ok versions →
          ∀ name ∈ versions, rules.MatchesWhole config.versionPattern name) ∧
      (¬ rules.Strays config.archivePattern →
        (∀ name, found.archive.accepts name ↔ rules.MatchesWhole config.archivePattern name) ∧
        ∀ (listing : Listing) tree folder path, listing.archive? tree folder found.archive = .ok (some path) →
          ∃ name, path = Path.join folder name ∧ rules.MatchesWhole config.archivePattern name) := by
  refine ⟨?_, fun source => ExpressionRules.stray_no_expression laws, fun source inside => ?_, fun found isRead => ?_⟩
  · simp only [patterns_by_ok_iff, ← laws.compiles, List.forall_mem_cons, List.not_mem_nil, false_implies, implies_true,
      and_true]
    constructor
    · rintro ⟨found, version, archive⟩
      exact ⟨⟨_, version⟩, _, archive⟩
    · rintro ⟨⟨version, isVersion⟩, archive, isArchive⟩
      exact ⟨⟨version, archive⟩, isVersion, isArchive⟩
  · exact ⟨ExpressionRules.closed_of_anchored laws inside, ExpressionRules.anchored_item laws⟩
  · obtain ⟨isVersion, isArchive⟩ := (patterns_by_ok_iff library config found).mp isRead
    refine ⟨fun inside => ?_, fun inside => ?_⟩
    · have whole := ExpressionRules.accepts_iff_whole laws inside isVersion
      exact ⟨whole, fun listing tree root versions listed name member =>
        (whole name).mp (Listing.versions_fit listed name member)⟩
    · have whole := ExpressionRules.accepts_iff_whole laws inside isArchive
      refine ⟨whole, fun listing tree folder path isFound => ?_⟩
      obtain ⟨name, isPath, accepted⟩ := Listing.archive_fits isFound
      exact ⟨name, isPath, (whole name).mp accepted⟩

def letterConfig : Config :=
  { initial with versionPattern := "a|bc", archivePattern := "b|a" }

def letterTree : FileTree :=
  ⟨[(["r"], .folder), (["r", "a"], .folder), (["r", "ax"], .folder), (["r", "v"], .folder),
    (["r", "v", "a"], .ofText ""), (["r", "v", "ax"], .ofText "")], []⟩

theorem patterns_match_whole_letters :
    PlainExpression.rules.Describe PlainExpression.library ∧
      ∃ found, letterConfig.patternsBy PlainExpression.library = .ok found ∧
        PlainExpression.rules.MatchesWhole "a|bc" "a" ∧ ¬ PlainExpression.rules.MatchesWhole "a|bc" "ax" ∧
        ∃ name, "r/v/a" = Path.join "r/v" name ∧ PlainExpression.rules.MatchesWhole "b|a" name := by
  refine ⟨PlainExpression.rules_describe, _, rfl, ?_⟩
  obtain ⟨_, _, _, selected⟩ :=
    patterns_match_whole letterConfig PlainExpression.library PlainExpression.rules PlainExpression.rules_describe
  obtain ⟨version, archive⟩ := selected _ rfl
  obtain ⟨whole, versionsWhole⟩ := version (ExpressionRules.not_strays (by decide))
  obtain ⟨_, archiveWhole⟩ := archive (ExpressionRules.not_strays (by decide))
  refine ⟨versionsWhole .plain letterTree "r" ["a"] (by decide +kernel) "a" (by decide), ?_, ?_⟩
  · exact mt (whole "ax").mpr (by decide +kernel)
  · exact archiveWhole .plain letterTree "r/v" "r/v/a" (by decide +kernel)

def strayConfig : Config :=
  { initial with versionPattern := "a)|(b", archivePattern := "a" }

theorem stray_text_accepted :
    PlainExpression.rules.Describe PlainExpression.library ∧ ¬ PlainExpression.rules.IsExpression "a)|(b" ∧
      ∃ found, strayConfig.patternsBy PlainExpression.library = .ok found ∧ found.version.accepts "ax" ∧
        Discovery.versions letterTree "r" found.version = .ok ["a", "ax"] := by
  refine ⟨PlainExpression.rules_describe, ?_, _, rfl, by decide +kernel, by decide +kernel⟩
  rintro ⟨stack, reads, _⟩
  cases reads

end Config

end BytecodeParity
