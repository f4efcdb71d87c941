import BytecodeParity.Proofs.InputStyles
import BytecodeParity.Proofs.SuccessCoverage

set_option autoImplicit false

namespace BytecodeParity

inductive Alike {ε α β : Type} (related : α → β → Prop) : Except ε α → Except ε β → Prop
  | failed (error : ε) : Alike related (.error error) (.error error)
  | given {a : α} {b : β} (holds : related a b) : Alike related (.ok a) (.ok b)

theorem Alike.ok {ε α β : Type} {related : α → β → Prop} {one : Except ε α} {other : Except ε β} {a : α}
    (alike : Alike related one other) (isOne : one = .ok a) : ∃ b, other = .ok b ∧ related a b := by
  subst isOne
  cases alike with
  | given holds => exact ⟨_, rfl, holds⟩

namespace ClassRecord

structure Narrows (inner : String) (wide narrow : ClassRecord) : Prop where
  version : narrow.version = wide.version
  className : narrow.className = wide.className
  methods : narrow.methods = wide.methods
  symbols : ∀ signature, narrow.implementation? signature =
    (wide.implementation? signature).map fun symbols => symbols.filter fun symbol => Text.contains symbol inner

theorem Narrows.equal {inner : String} {a b narrowA narrowB : ClassRecord} (narrowsA : Narrows inner a narrowA)
    (narrowsB : Narrows inner b narrowB) (same : a.StructurallyEqual b) : narrowA.StructurallyEqual narrowB := by
  rw [structurally_equal_iff_lookups] at same ⊢
  refine ⟨?_, fun signature => ?_⟩
  · rw [narrowsA.methods, narrowsB.methods, same.1]
  · rw [narrowsA.symbols, narrowsB.symbols, same.2]

theorem Narrows.sort {inner : String} {wide narrow : ClassRecord} (narrows : Narrows inner wide narrow) :
    Narrows inner wide.sortMethods narrow.sortMethods :=
  ⟨narrows.version, narrows.className, by rw [sortMethods, sortMethods, narrows.methods], narrows.symbols⟩

end ClassRecord

section Lines

variable {outer inner : String} (given : outer ≠ "") (within : outer.toList <:+: inner.toList)

theorem narrow_given (given : outer ≠ "") (within : outer.toList <:+: inner.toList) : inner ≠ "" := by
  rintro rfl
  exact given (String.toList_eq_nil_iff.mp (List.infix_nil.mp within))

include within

theorem contains_narrowed (s : String) (inside : Text.contains s inner) : Text.contains s outer := by
  rw [Text.contains_iff] at inside ⊢
  exact within.trans inside

theorem comment_narrowed (comment : List Char) :
    (Mention.ofComment inner comment).symbol? =
      (Mention.ofComment outer comment).symbol?.filter fun symbol => Text.contains symbol inner := by
  simp only [Mention.ofComment]
  cases ReferenceKind.ofKeyword? (Mention.cutKeyword (Text.dropBlanks comment)).1 with
  | none => rfl
  | some kind =>
      simp only
      generalize Text.trim (Mention.cutKeyword (Text.dropBlanks comment)).2 = target
      by_cases inside : Text.contains target inner
      · simp [inside, contains_narrowed within target inside, Mention.symbol?, Option.filter]
      · by_cases outside : Text.contains target outer <;> simp [inside, outside, Mention.symbol?, Option.filter]

include given

-- The prefix is looked for in the line and again in its target, and the target decides.
theorem symbol_narrowed (line : String) :
    symbolOf? inner line = (symbolOf? outer line).filter fun symbol => Text.contains symbol inner := by
  rw [Mention.symbol_of_comment inner line (narrow_given given within), Mention.symbol_of_comment outer line given]
  cases Mention.comment? line with
  | none => rfl
  | some comment => exact comment_narrowed within comment

theorem symbols_narrowed (lines : List String) :
    lines.filterMap (symbolOf? inner) =
      (lines.filterMap (symbolOf? outer)).filter fun symbol => Text.contains symbol inner := by
  rw [List.filter_filterMap]
  exact List.filterMap_congr fun line _ => symbol_narrowed given within line

end Lines

namespace Disassembly

inductive Source where
  | listed (version className : String) (listing disassembly : List String)
  | single (version : String) (disassembly : List String)

def Source.build (namespacePrefix : String) : Source → Build
  | .listed version className listing disassembly =>
      buildListed namespacePrefix version className listing disassembly
  | .single version disassembly => buildSingle namespacePrefix version disassembly

theorem built_well_formed {namespacePrefix : String} (source : Source) (record : ClassRecord)
    (built : (source.build namespacePrefix).outcome = .ok record) : record.WellFormed := by
  cases source with
  | listed version className listing disassembly =>
      exact ClassRecord.constructed_well_formed record (.listed _ _ _ _ _ record built)
  | single version disassembly => exact ClassRecord.constructed_well_formed record (.single _ _ _ record built)

section Building

variable {outer inner : String} (given : outer ≠ "") (within : outer.toList <:+: inner.toList)
include given within

theorem built_narrowed (startsMember : String → Bool) (version : String) (className : Option String)
    (tracked lines : List String) :
    ClassRecord.Narrows inner (builtRecord startsMember outer version className tracked lines)
      (builtRecord startsMember inner version className tracked lines) where
  version := by rw [builtRecord, builtRecord, ClassRecord.of_methods_version, ClassRecord.of_methods_version]
  className := by rw [builtRecord, builtRecord, ClassRecord.of_methods_class, ClassRecord.of_methods_class]
  methods := by rw [built_methods, built_methods]
  symbols signature := by
    rw [ClassRecord.implementation?, ClassRecord.implementation?, built_find, built_find]
    split
    · rw [Option.map_some, symbols_narrowed given within]
    · rfl

theorem build_narrowed (startsMember : String → Bool) (version : String) (className : Option String)
    (tracked lines : List String) :
    Alike (ClassRecord.Narrows inner) (build startsMember outer version className tracked lines).outcome
      (build startsMember inner version className tracked lines).outcome := by
  cases found : tracked.find? fun signature => (body? startsMember tracked lines signature).isNone with
  | some signature =>
      simp only [build, found]
      exact .failed _
  | none =>
      simp only [build, found]
      exact .given (built_narrowed given within startsMember version className tracked lines)

theorem source_narrowed (source : Source) :
    Alike (ClassRecord.Narrows inner) (source.build outer).outcome (source.build inner).outcome := by
  cases source with
  | listed version className listing disassembly => exact build_narrowed given within _ _ _ _ _
  | single version disassembly =>
      have collected := build_narrowed given within Text.startsInked version none
        (declaredSignatures (disassembly.map stripIndent)) (disassembly.map stripIndent)
      simp only [Source.build, buildSingle]
      generalize (build Text.startsInked outer version none _ _).outcome = wide at collected
      generalize (build Text.startsInked inner version none _ _).outcome = narrow at collected
      cases collected with
      | failed missing => exact .failed missing
      | given narrows => exact .given narrows.sort

theorem equal_narrowed (one other : Source) (a b : ClassRecord) (builtA : (one.build outer).outcome = .ok a)
    (builtB : (other.build outer).outcome = .ok b) (same : a.StructurallyEqual b) :
    ∃ narrowA narrowB, (one.build inner).outcome = .ok narrowA ∧ (other.build inner).outcome = .ok narrowB ∧
      narrowA.StructurallyEqual narrowB ∧ Baselines.judge (some narrowA) narrowB = .ok (.compared a.version) := by
  obtain ⟨narrowA, builtNarrowA, narrowsA⟩ := (source_narrowed given within one).ok builtA
  obtain ⟨narrowB, builtNarrowB, narrowsB⟩ := (source_narrowed given within other).ok builtB
  have equal := narrowsA.equal narrowsB same
  have accepted := ClassRecord.judge_equal narrowA narrowB (built_well_formed one narrowA builtNarrowA)
    (built_well_formed other narrowB builtNarrowB) equal
  exact ⟨narrowA, narrowB, builtNarrowA, builtNarrowB, equal, narrowsA.version ▸ accepted⟩

end Building

end Disassembly

namespace Session

inductive NarrowsReading (inner : String) : Reading → Reading → Prop
  | absent (version className : String) :
      NarrowsReading inner (.absent version className) (.absent version className)
  | built (scope : BuildScope) {wide narrow : Build}
      (outcome : Alike (ClassRecord.Narrows inner) wide.outcome narrow.outcome) :
      NarrowsReading inner (.built scope wide) (.built scope narrow)

section Comparison

variable {ε α : Type} {className : α → Option String} {wide narrow : α → Except ε Reading} {inner : String}
  (alike : ∀ input, Alike (NarrowsReading inner) (wide input) (narrow input))
include alike

theorem built_of_narrow (input : α) (scope : BuildScope) (build : Build)
    (read : narrow input = .ok (.built scope build)) :
    ∃ whole, wide input = .ok (.built scope whole) ∧
      Alike (ClassRecord.Narrows inner) whole.outcome build.outcome := by
  have reads := alike input
  rw [read] at reads
  generalize wide input = reading at reads
  cases reads with
  | given narrows =>
      cases narrows with
      | built scope outcome => exact ⟨_, rfl, outcome⟩

theorem gives_of_narrow (input : α) (record : ClassRecord) (gives : Gives narrow input record) :
    ∃ whole, Gives wide input whole ∧ ClassRecord.Narrows inner whole record := by
  obtain ⟨scope, build, read, built⟩ := gives
  obtain ⟨wholeBuild, readWhole, outcome⟩ := built_of_narrow alike input scope build read
  rw [built] at outcome
  generalize wideOutcome : wholeBuild.outcome = given at outcome
  cases outcome with
  | given narrows => exact ⟨_, ⟨scope, wholeBuild, readWhole, wideOutcome⟩, narrows⟩

theorem agree_narrowed (inputs : List α) (agree : Agree wide inputs) : Agree narrow inputs := by
  refine ⟨fun input member scope build read => ?_, fun a memberA b memberB recordA recordB givesA givesB => ?_⟩
  · obtain ⟨whole, readWhole, outcome⟩ := built_of_narrow alike input scope build read
    obtain ⟨record, built⟩ := agree.1 input member scope whole readWhole
    obtain ⟨kept, isKept, _⟩ := outcome.ok built
    exact ⟨kept, isKept⟩
  · obtain ⟨wholeA, givesWholeA, narrowsA⟩ := gives_of_narrow alike a recordA givesA
    obtain ⟨wholeB, givesWholeB, narrowsB⟩ := gives_of_narrow alike b recordB givesB
    exact narrowsA.equal narrowsB (agree.2 a memberA b memberB wholeA wholeB givesWholeA givesWholeB)

-- A comparison that finds nothing has passed over no input, so the narrower one can read them all.
theorem compare_narrowed (faithful : Faithful className wide) (narrowFaithful : Faithful className narrow)
    (inputs : List α) (keepGoing : Bool) (last : Session)
    (done : compare className wide inputs (start keepGoing) = (.ok (), last))
    (consistent : last.classes.all ClassReport.isConsistent) :
    ∃ final, compare className narrow inputs (start keepGoing) = (.ok (), final) ∧
      final.classes.all ClassReport.isConsistent := by
  have valid : last.Valid := by
    simpa [done] using compare_valid faithful inputs (start keepGoing) (start_valid keepGoing)
  have readable : ∀ input ∈ inputs, ∃ reading, narrow input = .ok reading := by
    intro input member
    obtain ⟨reading, read, _⟩ := compare_unhalted faithful inputs _ last (start_valid keepGoing) done input member
      (consistent_unhalted last valid consistent (className input))
    obtain ⟨narrowed, narrowRead, _⟩ := (alike input).ok read
    exact ⟨narrowed, narrowRead⟩
  have narrowDone : compare className narrow inputs (start keepGoing) =
      (.ok (), (compare className narrow inputs (start keepGoing)).2) :=
    Prod.ext (compare_all_read inputs (start keepGoing) readable) rfl
  refine ⟨_, narrowDone, (compare_consistent_iff narrowFaithful inputs keepGoing _ narrowDone).mpr fun name => ?_⟩
  exact agree_narrowed alike _ ((compare_consistent_iff faithful inputs keepGoing last done).mp consistent name)

end Comparison

end Session

namespace Verification

def inNamespace (verification : Verification) (namespacePrefix : String) : Verification :=
  { verification with config := { verification.config with namespacePrefix := namespacePrefix } }

section Namespaces

variable (verification : Verification) (outer inner : String)

theorem prepare_in_namespace : (verification.inNamespace inner).prepare .plain = verification.prepare .plain :=
  prepare_comparing verification verification.options.keepGoing inner .plain

variable {outer inner} (given : outer ≠ "") (within : outer.toList <:+: inner.toList)
include given within

theorem read_pair_narrowed (tree : FileTree) (pair : String × String) :
    Alike (Session.NarrowsReading inner) ((verification.inNamespace outer).readPair tree pair)
      ((verification.inNamespace inner).readPair tree pair) := by
  obtain ⟨version, className⟩ := pair
  simp only [readPair, bind, Except.bind, inNamespace]
  cases accessing (Discovery.readLines tree (Layout.artifactPaths verification.root version className).disassembly) with
  | error error => exact .failed error
  | ok disassembly =>
      cases disassembly with
      | none => exact .given (.absent version className)
      | some disassembly =>
          simp only
          cases accessing (Discovery.readLines tree
              (Layout.artifactPaths verification.root version className).signatures) with
          | error error => exact .failed error
          | ok listing =>
              cases listing with
              | none => exact .failed _
              | some listing =>
                  exact .given (.built _ (Disassembly.source_narrowed given within
                    (.listed version className listing disassembly)))

theorem run_narrowed (now : String) (tree : FileTree) (report : Report)
    (reported : ((verification.inNamespace outer).run now tree).1 = .ok report) (succeeded : report.success) :
    ∃ narrow, ((verification.inNamespace inner).run now tree).1 = .ok narrow ∧ narrow.success := by
  obtain ⟨versions, classes, reached, last, prepared, done, rfl⟩ := (run_ok_iff _ _ _ _).mp reported
  obtain ⟨final, finalDone, consistent⟩ := Session.compare_narrowed
    (read_pair_narrowed verification given within reached.tree) (read_pair_faithful _ reached.tree)
    (read_pair_faithful _ reached.tree) (pairs versions classes) _ last done succeeded
  rw [prepare_in_namespace] at prepared
  refine ⟨_, (run_ok_iff _ _ _ _).mpr ⟨versions, classes, reached, final, ?_, finalDone, rfl⟩, consistent⟩
  rw [prepare_in_namespace, prepared]

end Namespaces

end Verification

namespace SingleRun

section Namespaces

variable {outer inner : String} (given : outer ≠ "") (within : outer.toList <:+: inner.toList)
include given within

theorem read_input_narrowed (tree : FileTree) (input : SingleInput) :
    Alike (Session.NarrowsReading inner) (readInput outer tree input) (readInput inner tree input) := by
  simp only [readInput, bind, Except.bind]
  cases Verification.accessing (Discovery.readLines tree input.path) with
  | error error => exact .failed error
  | ok lines =>
      cases lines with
      | none => exact .failed _
      | some lines =>
          exact .given (.built _ (Disassembly.source_narrowed given within (.single input.version lines)))

theorem run_narrowed (keepGoing : Bool) (inputs : List SingleInput) (now : String) (tree : FileTree) (report : Report)
    (reported : (run outer keepGoing inputs now tree).1 = .ok report) (succeeded : report.success) :
    ∃ narrow, (run inner keepGoing inputs now tree).1 = .ok narrow ∧ narrow.success := by
  obtain ⟨some, last, done, rfl⟩ := (run_ok_iff _ _ _ _ _ _).mp reported
  obtain ⟨final, finalDone, consistent⟩ := Session.compare_narrowed (read_input_narrowed given within tree)
    (read_input_faithful outer tree) (read_input_faithful inner tree) inputs keepGoing last done succeeded
  exact ⟨_, (run_ok_iff _ _ _ _ _ _).mpr ⟨some, final, finalDone, rfl⟩, consistent⟩

end Namespaces

end SingleRun

-- Each build fails with both prefixes or with neither. Records that were different can become equal.
theorem narrowing_filters (outer inner : String) (given : outer ≠ "") (within : outer.toList <:+: inner.toList) :
    (∀ source : Disassembly.Source,
      Alike (ClassRecord.Narrows inner) (source.build outer).outcome (source.build inner).outcome) ∧
    (∀ (one other : Disassembly.Source) (a b : ClassRecord), (one.build outer).outcome = .ok a →
      (other.build outer).outcome = .ok b → a.StructurallyEqual b →
        ∃ narrowA narrowB, (one.build inner).outcome = .ok narrowA ∧ (other.build inner).outcome = .ok narrowB ∧
          narrowA.StructurallyEqual narrowB ∧ Baselines.judge (some narrowA) narrowB = .ok (.compared a.version)) ∧
    (∀ (verification : Verification) (now : String) (tree : FileTree) (report : Report),
      ((verification.inNamespace outer).run now tree).1 = .ok report → report.success →
        ∃ narrow, ((verification.inNamespace inner).run now tree).1 = .ok narrow ∧ narrow.success) ∧
    ∀ (keepGoing : Bool) (inputs : List SingleInput) (now : String) (tree : FileTree) (report : Report),
      (SingleRun.run outer keepGoing inputs now tree).1 = .ok report → report.success →
        ∃ narrow, (SingleRun.run inner keepGoing inputs now tree).1 = .ok narrow ∧ narrow.success :=
  ⟨Disassembly.source_narrowed given within, Disassembly.equal_narrowed given within,
    fun verification => Verification.run_narrowed verification given within, SingleRun.run_narrowed given within⟩

def worldListing : List String :=
  ["  int a();", "  void b();"]

def worldPrinted : List String :=
  ["  int a();", "   0: get #1 // Field n/w/X.f", "   1: call n/w/ // Method n/Y.g", "  void b();",
    "   0: call #2 // Method j/L.m:(Ln/w/X;)V"]

def worldSource (version : String) : Disassembly.Source :=
  .listed version "A" worldListing worldPrinted

set_option maxRecDepth 10000 in
theorem narrowing_filters_world :
    "n/" ≠ "" ∧ "n/".toList <:+: "n/w/".toList ∧
    (∃ wide narrow, ((worldSource "1").build "n/").outcome = .ok wide ∧
      ((worldSource "1").build "n/w/").outcome = .ok narrow ∧ ClassRecord.Narrows "n/w/" wide narrow ∧
      wide.implementation? "int a();" = some ["n/w/X.f", "n/Y.g"] ∧
      narrow.implementation? "int a();" = some ["n/w/X.f"] ∧
      narrow.implementation? "void b();" = some ["j/L.m:(Ln/w/X;)V"]) ∧
    (∃ narrow later, ((worldSource "1").build "n/w/").outcome = .ok narrow ∧
      ((worldSource "2").build "n/w/").outcome = .ok later ∧
      Baselines.judge (some narrow) later = .ok (.compared "1")) ∧
    ((returningVerification.inNamespace "n/").run "noon" partlyKeptTree).1 = .ok partlyKeptReport ∧
    ∃ narrow,
      ((returningVerification.inNamespace "n/w/").run "noon" partlyKeptTree).1 = .ok narrow ∧ narrow.success := by
  have given : "n/" ≠ "" := by decide
  have within : "n/".toList <:+: "n/w/".toList := by decide
  obtain ⟨builds, equal, runs, _⟩ := narrowing_filters "n/" "n/w/" given within
  have built : ∀ version, ((worldSource version).build "n/").outcome =
      .ok (.ofMethods version (some "A")
        [("int a();", ["n/w/X.f", "n/Y.g"]), ("void b();", ["j/L.m:(Ln/w/X;)V"])]) := by
    intro version
    rfl
  have reported : ((returningVerification.inNamespace "n/").run "noon" partlyKeptTree).1 = .ok partlyKeptReport := by
    decide +kernel
  obtain ⟨narrow, narrowBuilt, narrows⟩ := (builds (worldSource "1")).ok (built "1")
  obtain ⟨first, later, builtFirst, builtLater, _, accepted⟩ :=
    equal (worldSource "1") (worldSource "2") _ _ (built "1") (built "2") (ClassRecord.of_methods_equal _ _ _ _ _)
  refine ⟨given, within, ⟨_, narrow, built "1", narrowBuilt, narrows, by decide, ?_, ?_⟩,
    ⟨first, later, builtFirst, builtLater, accepted⟩, reported,
    runs returningVerification "noon" _ _ reported (by decide)⟩
  · rw [narrows.symbols]
    decide
  · rw [narrows.symbols]
    decide

end BytecodeParity
