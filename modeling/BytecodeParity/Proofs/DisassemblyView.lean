import Mathlib.Data.List.Find
import BytecodeParity.Proofs.FirstDifference
import BytecodeParity.Proofs.TextSearch

/-!
What building sees of a disassembly. Only the lines that open a member and the symbols of the
namespace count: two disassemblies with the same views give the same record, so renumbered
references and instructions that use other parts of the platform never cause a divergence.
-/

set_option autoImplicit false

namespace BytecodeParity

namespace Mention

def comment? (line : String) : Option (List Char) :=
  (Text.cutAt commentMarker line.toList).map (·.2)

theorem of_comment_symbol (namespacePrefix target : String) (comment : List Char)
    (read : (ofComment namespacePrefix comment).symbol? = some target) : namespacePrefix.toList <:+: comment := by
  rw [ofComment] at read
  simp only at read
  split at read
  · cases read
  · split at read
    · next mentions =>
        have inRest := ((Text.contains_iff _ _).mp mentions).trans (Text.trim_infix _)
        rw [cutKeyword, String.toList_ofList] at inRest
        exact inRest.trans (((List.drop_suffix _ _).trans (List.dropWhile_suffix _)).trans
          (List.dropWhile_suffix _)).isInfix
    · cases read

-- A line without the prefix has no comment with it, so the test of the whole line decides nothing more.
theorem symbol_of_comment (namespacePrefix line : String) (given : namespacePrefix ≠ "") :
    symbolOf? namespacePrefix line =
      (comment? line).bind fun comment => (ofComment namespacePrefix comment).symbol? := by
  rw [symbolOf?, ofLine, comment?]
  cases cut : Text.cutAt commentMarker line.toList with
  | none => split <;> rfl
  | some pieces =>
      by_cases related : Text.contains line namespacePrefix
      · simp [given, related]
      · have silent : (ofComment namespacePrefix pieces.2).symbol? = none := by
          rw [Option.eq_none_iff_forall_ne_some]
          intro target read
          apply related
          rw [Text.contains_iff]
          exact (of_comment_symbol _ _ _ read).trans (Text.cut_at_suffix _ _ _ _ cut).isInfix
        rw [if_pos (by simp [related])]
        exact silent.symm

theorem symbol_eq_of_comment (namespacePrefix line renumbered : String) (same : comment? line = comment? renumbered) :
    symbolOf? namespacePrefix line = symbolOf? namespacePrefix renumbered := by
  by_cases given : namespacePrefix = ""
  · simp [symbolOf?, ofLine, given]
  · rw [symbol_of_comment _ _ given, symbol_of_comment _ _ given, same]

end Mention

namespace Disassembly

inductive View where
  | boundary (text : String)
  | symbol (target : String)
deriving DecidableEq

def View.target? : View → Option String
  | .boundary _ => none
  | .symbol target => some target

def view? (startsMember : String → Bool) (namespacePrefix : String) (tracked : List String) (line : String) :
    Option View :=
  if isBoundary startsMember tracked line then some (.boundary (Text.trim line))
  else (symbolOf? namespacePrefix line).map .symbol

def views (startsMember : String → Bool) (namespacePrefix : String) (tracked lines : List String) : List View :=
  lines.filterMap (view? startsMember namespacePrefix tracked)

def viewedSymbols? (signature : String) (seen : List View) : Option (List String) :=
  match seen.dropWhile fun view => view ≠ .boundary signature with
  | [] => none
  | _ :: rest => some ((rest.takeWhile fun view => view.target?.isSome).filterMap View.target?)

section Views

variable {startsMember : String → Bool} {namespacePrefix : String} {tracked : List String}

theorem views_of_boundary (line : String) (rest : List String) (opens : isBoundary startsMember tracked line) :
    views startsMember namespacePrefix tracked (line :: rest) =
      .boundary (Text.trim line) :: views startsMember namespacePrefix tracked rest := by
  simp [views, view?, opens]

theorem views_of_inner (line : String) (rest : List String) (inner : isBoundary startsMember tracked line = false) :
    views startsMember namespacePrefix tracked (line :: rest) =
      ((symbolOf? namespacePrefix line).map View.symbol).toList ++
        views startsMember namespacePrefix tracked rest := by
  cases found : symbolOf? namespacePrefix line <;> simp [views, view?, inner, found]

theorem symbols_before_boundary (lines : List String) :
    (lines.takeWhile fun line => !isBoundary startsMember tracked line).filterMap (symbolOf? namespacePrefix) =
      ((views startsMember namespacePrefix tracked lines).takeWhile fun view => view.target?.isSome).filterMap
        View.target? := by
  induction lines with
  | nil => rfl
  | cons line rest ih =>
      cases opens : isBoundary startsMember tracked line with
      | true => simp [views_of_boundary line rest opens, opens, View.target?]
      | false =>
          rw [views_of_inner line rest opens]
          cases found : symbolOf? namespacePrefix line <;> simp [opens, found, ih, View.target?]

-- Until the signature is met neither scan looks at anything but the texts of the boundaries.
theorem body_symbols_eq_viewed (lines : List String) (signature : String) (known : signature ∈ tracked) :
    (body? startsMember tracked lines signature).map (·.filterMap (symbolOf? namespacePrefix)) =
      viewedSymbols? signature (views startsMember namespacePrefix tracked lines) := by
  induction lines with
  | nil => rfl
  | cons line rest ih =>
      by_cases declares : Text.trim line = signature
      · have opens : isBoundary startsMember tracked line := by
          simp [isBoundary, declares, known]
        rw [views_of_boundary line rest opens]
        simp [body?, viewedSymbols?, declares, symbols_before_boundary]
      · have skipped : body? startsMember tracked (line :: rest) signature =
            body? startsMember tracked rest signature := by
          simp [body?, declares]
        rw [skipped, ih]
        cases opens : isBoundary startsMember tracked line with
        | true => simp [views_of_boundary line rest opens, viewedSymbols?, declares]
        | false =>
            rw [views_of_inner line rest opens]
            cases symbolOf? namespacePrefix line <;> simp [viewedSymbols?]

end Views

section Outcome

variable (startsMember : String → Bool) (namespacePrefix version : String) (className : Option String)
  (signatures : List String)

theorem outcome_of_symbols (lines : List String) (symbols? : String → Option (List String))
    (read : ∀ signature ∈ signatures, (body? startsMember signatures lines signature).map
      (·.filterMap (symbolOf? namespacePrefix)) = symbols? signature) :
    (build startsMember namespacePrefix version className signatures lines).outcome =
      match signatures.find? fun signature => (symbols? signature).isNone with
      | some signature => .error ⟨version, className, signature⟩
      | none => .ok (.ofMethods version className (signatures.map fun signature =>
          (signature, (symbols? signature).getD []))) := by
  have missing : (signatures.find? fun signature => (symbols? signature).isNone) =
      signatures.find? fun signature => (body? startsMember signatures lines signature).isNone := by
    apply List.find?_congr
    intro signature known
    rw [← read signature known, Option.isNone_map]
  have rows : (signatures.map fun signature => (signature, (symbols? signature).getD [])) =
      signatures.map fun signature => (signature,
        ((body? startsMember signatures lines signature).getD []).filterMap (symbolOf? namespacePrefix)) := by
    apply List.map_congr_left
    intro signature known
    rw [← read signature known]
    cases body? startsMember signatures lines signature <;> rfl
  rw [missing, rows]
  rfl

theorem build_outcome_eq (lines : List String) :
    (build startsMember namespacePrefix version className signatures lines).outcome =
      match signatures.find? fun signature =>
        (viewedSymbols? signature (views startsMember namespacePrefix signatures lines)).isNone with
      | some signature => .error ⟨version, className, signature⟩
      | none => .ok (.ofMethods version className (signatures.map fun signature =>
          (signature, (viewedSymbols? signature (views startsMember namespacePrefix signatures lines)).getD []))) :=
  outcome_of_symbols startsMember namespacePrefix version className signatures lines _
    fun signature known => body_symbols_eq_viewed lines signature known

theorem build_outcome_of_views (lines others : List String)
    (same : views startsMember namespacePrefix signatures lines =
      views startsMember namespacePrefix signatures others) :
    (build startsMember namespacePrefix version className signatures lines).outcome =
      (build startsMember namespacePrefix version className signatures others).outcome := by
  rw [build_outcome_eq, build_outcome_eq, same]

end Outcome

-- The same lines but for what the namespace does not show in: lines that open no member may be
-- renumbered in front of their comment, and lines without a symbol may come and go.
inductive Rewritten (startsMember : String → Bool) (namespacePrefix : String) (tracked : List String) :
    List String → List String → Prop
  | done : Rewritten startsMember namespacePrefix tracked [] []
  | kept (line : String) {before after : List String} :
      Rewritten startsMember namespacePrefix tracked before after →
      Rewritten startsMember namespacePrefix tracked (line :: before) (line :: after)
  | renumbered (line renumbered : String) {before after : List String}
      (innerBefore : isBoundary startsMember tracked line = false)
      (innerAfter : isBoundary startsMember tracked renumbered = false)
      (sameComment : Mention.comment? line = Mention.comment? renumbered) :
      Rewritten startsMember namespacePrefix tracked before after →
      Rewritten startsMember namespacePrefix tracked (line :: before) (renumbered :: after)
  | added (line : String) {before after : List String} (inner : isBoundary startsMember tracked line = false)
      (stable : symbolOf? namespacePrefix line = none) :
      Rewritten startsMember namespacePrefix tracked before after →
      Rewritten startsMember namespacePrefix tracked before (line :: after)
  | removed (line : String) {before after : List String} (inner : isBoundary startsMember tracked line = false)
      (stable : symbolOf? namespacePrefix line = none) :
      Rewritten startsMember namespacePrefix tracked before after →
      Rewritten startsMember namespacePrefix tracked (line :: before) after

theorem rewritten_views {startsMember : String → Bool} {namespacePrefix : String} {tracked before after : List String}
    (rewritten : Rewritten startsMember namespacePrefix tracked before after) :
    views startsMember namespacePrefix tracked before = views startsMember namespacePrefix tracked after := by
  induction rewritten with
  | done => rfl
  | kept line _ ih => simp only [views, List.filterMap_cons] at ih ⊢; rw [ih]
  | renumbered line renumbered innerBefore innerAfter sameComment _ ih =>
      rw [views_of_inner line _ innerBefore, views_of_inner renumbered _ innerAfter, ih,
        Mention.symbol_eq_of_comment namespacePrefix line renumbered sameComment]
  | added line inner stable _ ih => rw [views_of_inner line _ inner, stable, ih]; rfl
  | removed line inner stable _ ih => rw [views_of_inner line _ inner, stable, ih]; rfl

theorem declaration_inked (line : String) (declares : isDeclaration line) : Text.startsInked line := by
  rw [Text.startsInked]
  cases chars : line.toList with
  | nil => simp [isDeclaration, declarationModifiers, chars] at declares
  | cons first rest =>
      have start : 'p' = first := by
        simp [isDeclaration, declarationModifiers, chars] at declares
        exact declares.elim And.left And.left
      subst start
      rfl

theorem rewritten_declarations {namespacePrefix : String} {tracked before after : List String}
    (rewritten : Rewritten Text.startsInked namespacePrefix tracked before after) :
    declaredSignatures before = declaredSignatures after := by
  have skipped : ∀ line rest, isBoundary Text.startsInked tracked line = false →
      declaredSignatures (line :: rest) = declaredSignatures rest := by
    intro line rest inner
    have undeclared : ¬ isDeclaration line := fun declares => by
      simp [isBoundary, declaration_inked line declares] at inner
    simp [declaredSignatures, undeclared]
  induction rewritten with
  | done => rfl
  | kept line _ ih => simp only [declaredSignatures, List.filter_cons] at ih ⊢; split <;> simp [ih]
  | renumbered line renumbered innerBefore innerAfter _ _ ih =>
      rw [skipped line _ innerBefore, skipped renumbered _ innerAfter, ih]
  | added line inner _ _ ih => rw [skipped line _ inner, ih]
  | removed line inner _ _ ih => rw [skipped line _ inner, ih]

end Disassembly

namespace ClassRecord

theorem of_methods_equal (version other : String) (className otherClass : Option String)
    (rows : List SymbolTable.Row) :
    (ofMethods version className rows).StructurallyEqual (ofMethods other otherClass rows) := by
  refine ⟨?_, SymbolTable.eq_of_find _ _ fun query => ?_⟩
  · rw [of_methods_methods, of_methods_methods]
  · rw [of_methods_find, of_methods_find]

theorem sort_methods_equal (a b : ClassRecord) (same : a.StructurallyEqual b) :
    a.sortMethods.StructurallyEqual b.sortMethods :=
  ⟨by rw [sortMethods, sortMethods, same.1], same.2⟩

theorem judge_equal (baseline record : ClassRecord) (goodBaseline : baseline.WellFormed)
    (goodRecord : record.WellFormed) (same : baseline.StructurallyEqual record) :
    Baselines.judge (some baseline) record = .ok (.compared baseline.version) := by
  rw [Baselines.judge, (locate_none_iff baseline record goodBaseline goodRecord).mpr same]

end ClassRecord

namespace Disassembly

theorem build_again (startsMember : String → Bool) (namespacePrefix version later : String)
    (className : Option String) (signatures lines others : List String) (record : ClassRecord)
    (same : views startsMember namespacePrefix signatures lines =
      views startsMember namespacePrefix signatures others)
    (built : (build startsMember namespacePrefix version className signatures lines).outcome = .ok record) :
    ∃ next, (build startsMember namespacePrefix later className signatures others).outcome = .ok next ∧
      record.StructurallyEqual next ∧ record.version = version := by
  rw [build_outcome_of_views startsMember namespacePrefix version className signatures lines others same] at built
  obtain ⟨found, rfl⟩ := (build_ok_iff _ _ _ _ _ _ _).mp built
  refine ⟨_, (build_ok_iff _ _ _ _ _ _ _).mpr ⟨found, rfl⟩, ?_, ClassRecord.of_methods_version _ _ _⟩
  exact ClassRecord.of_methods_equal version later className className _

theorem single_outcome_of_views (namespacePrefix version : String) (disassembly other : List String)
    (declared : declaredSignatures (disassembly.map stripIndent) = declaredSignatures (other.map stripIndent))
    (same : views Text.startsInked namespacePrefix (declaredSignatures (disassembly.map stripIndent))
        (disassembly.map stripIndent) =
      views Text.startsInked namespacePrefix (declaredSignatures (disassembly.map stripIndent))
        (other.map stripIndent)) :
    (buildSingle namespacePrefix version disassembly).outcome =
      (buildSingle namespacePrefix version other).outcome := by
  simp only [buildSingle]
  rw [← declared, build_outcome_of_views _ _ _ _ _ _ _ same]

theorem listed_rewritten_accepted (namespacePrefix version later className : String)
    (listing disassembly other : List String) (record : ClassRecord)
    (rewritten : Rewritten isMemberLine namespacePrefix (listedSignatures listing) disassembly other)
    (built : (buildListed namespacePrefix version className listing disassembly).outcome = .ok record) :
    ∃ next, (buildListed namespacePrefix later className listing other).outcome = .ok next ∧
      Baselines.judge (some record) next = .ok (.compared version) := by
  obtain ⟨next, builtNext, same, named⟩ :=
    build_again isMemberLine namespacePrefix version later (some className) (listedSignatures listing) disassembly other
      record (rewritten_views rewritten) built
  have good := ClassRecord.constructed_well_formed record (.listed _ _ _ _ _ _ built)
  have goodNext := ClassRecord.constructed_well_formed next (.listed _ _ _ _ _ _ builtNext)
  exact ⟨next, builtNext, named ▸ ClassRecord.judge_equal record next good goodNext same⟩

theorem single_rewritten_accepted (namespacePrefix version later : String) (disassembly other : List String)
    (record : ClassRecord)
    (rewritten : Rewritten Text.startsInked namespacePrefix (declaredSignatures (disassembly.map stripIndent))
      (disassembly.map stripIndent) (other.map stripIndent))
    (built : (buildSingle namespacePrefix version disassembly).outcome = .ok record) :
    ∃ next, (buildSingle namespacePrefix later other).outcome = .ok next ∧
      Baselines.judge (some record) next = .ok (.compared version) := by
  obtain ⟨collected, collects, rfl⟩ := (build_single_ok_iff _ _ _ _).mp built
  obtain ⟨next, collectsNext, same, named⟩ :=
    build_again Text.startsInked namespacePrefix version later none _ _ _ collected (rewritten_views rewritten) collects
  rw [rewritten_declarations rewritten] at collectsNext
  have builtNext := (build_single_ok_iff _ _ _ _).mpr ⟨next, collectsNext, rfl⟩
  have good := ClassRecord.constructed_well_formed _ (.single _ _ _ _ built)
  have goodNext := ClassRecord.constructed_well_formed _ (.single _ _ _ _ builtNext)
  have sameSorted := ClassRecord.sort_methods_equal collected next same
  exact ⟨_, builtNext, named ▸ ClassRecord.judge_equal _ _ good goodNext sameSorted⟩

-- The record does not depend on anything else in a disassembly. A version that differs from the one
-- before it by renumbered and stable lines alone is built when that one is, and compares equal to it.
theorem only_views_matter :
    (∀ (namespacePrefix version className : String) (listing disassembly other : List String),
      views isMemberLine namespacePrefix (listedSignatures listing) disassembly =
          views isMemberLine namespacePrefix (listedSignatures listing) other →
        (buildListed namespacePrefix version className listing disassembly).outcome =
          (buildListed namespacePrefix version className listing other).outcome) ∧
    (∀ (namespacePrefix version : String) (disassembly other : List String),
      declaredSignatures (disassembly.map stripIndent) = declaredSignatures (other.map stripIndent) →
      views Text.startsInked namespacePrefix (declaredSignatures (disassembly.map stripIndent))
            (disassembly.map stripIndent) =
          views Text.startsInked namespacePrefix (declaredSignatures (disassembly.map stripIndent))
            (other.map stripIndent) →
        (buildSingle namespacePrefix version disassembly).outcome =
          (buildSingle namespacePrefix version other).outcome) ∧
    (∀ (namespacePrefix version later className : String) (listing disassembly other : List String)
        (record : ClassRecord),
      Rewritten isMemberLine namespacePrefix (listedSignatures listing) disassembly other →
      (buildListed namespacePrefix version className listing disassembly).outcome = .ok record →
        ∃ next, (buildListed namespacePrefix later className listing other).outcome = .ok next ∧
          Baselines.judge (some record) next = .ok (.compared version)) ∧
    ∀ (namespacePrefix version later : String) (disassembly other : List String) (record : ClassRecord),
      Rewritten Text.startsInked namespacePrefix (declaredSignatures (disassembly.map stripIndent))
        (disassembly.map stripIndent) (other.map stripIndent) →
      (buildSingle namespacePrefix version disassembly).outcome = .ok record →
        ∃ next, (buildSingle namespacePrefix later other).outcome = .ok next ∧
          Baselines.judge (some record) next = .ok (.compared version) :=
  ⟨fun namespacePrefix version className listing disassembly other same =>
      build_outcome_of_views isMemberLine namespacePrefix version (some className) (listedSignatures listing)
        disassembly other same,
    single_outcome_of_views, listed_rewritten_accepted, single_rewritten_accepted⟩

def sizeListing : List String :=
  ["class A \x7b", "  public final int n();", "\x7d"]

def sizePrinted : List String :=
  ["  public final int n();", "   0: aload_0", "   1: get #7 // Field n/X.n", "   4: call #9 // Method j/L.m",
    "   7: ireturn", "\x7d"]

def sizeReprinted : List String :=
  ["  public final int n();", "   0: get #3 // Field n/X.n", "   3: ireturn", "   4: nop", "\x7d"]

theorem only_views_matter_renumbered :
    (Rewritten isMemberLine "n/" (listedSignatures sizeListing) sizePrinted sizeReprinted ∧
      (buildListed "n/" "1" "A" sizeListing sizePrinted).outcome =
        (buildListed "n/" "1" "A" sizeListing sizeReprinted).outcome ∧
      ∃ record next, (buildListed "n/" "1" "A" sizeListing sizePrinted).outcome = .ok record ∧
        (buildListed "n/" "2" "A" sizeListing sizeReprinted).outcome = .ok next ∧
        record.implementation? "public final int n();" = some ["n/X.n"] ∧
        Baselines.judge (some record) next = .ok (.compared "1")) ∧
    (Rewritten Text.startsInked "n/" (declaredSignatures (sizePrinted.map stripIndent))
        (sizePrinted.map stripIndent) (sizeReprinted.map stripIndent) ∧
      (buildSingle "n/" "1" sizePrinted).outcome = (buildSingle "n/" "1" sizeReprinted).outcome ∧
      ∃ record next, (buildSingle "n/" "1" sizePrinted).outcome = .ok record ∧
        (buildSingle "n/" "2" sizeReprinted).outcome = .ok next ∧
        record.implementation? "public final int n();" = some ["n/X.n"] ∧
        Baselines.judge (some record) next = .ok (.compared "1")) := by
  have listed : Rewritten isMemberLine "n/" (listedSignatures sizeListing) sizePrinted sizeReprinted :=
    .kept _ (.removed _ (by decide) (by decide) (.renumbered _ _ (by decide) (by decide) (by decide)
      (.removed _ (by decide) (by decide) (.renumbered _ _ (by decide) (by decide) (by decide)
        (.added _ (by decide) (by decide) (.kept _ .done))))))
  have single : Rewritten Text.startsInked "n/" (declaredSignatures (sizePrinted.map stripIndent))
      (sizePrinted.map stripIndent) (sizeReprinted.map stripIndent) :=
    .kept _ (.removed _ (by decide) (by decide) (.renumbered _ _ (by decide) (by decide) (by decide)
      (.removed _ (by decide) (by decide) (.renumbered _ _ (by decide) (by decide) (by decide)
        (.added _ (by decide) (by decide) (.kept _ .done))))))
  obtain ⟨sameListed, sameSingle, acceptsListed, acceptsSingle⟩ := only_views_matter
  refine ⟨⟨listed, sameListed "n/" "1" "A" _ _ _ (rewritten_views listed), ?_⟩,
    single, sameSingle "n/" "1" _ _ (rewritten_declarations single) (rewritten_views single), ?_⟩
  · have built : (buildListed "n/" "1" "A" sizeListing sizePrinted).outcome =
        .ok (.ofMethods "1" (some "A") [("public final int n();", ["n/X.n"])]) := by decide
    obtain ⟨next, builtNext, accepted⟩ := acceptsListed "n/" "1" "2" "A" _ _ _ _ listed built
    exact ⟨_, next, built, builtNext, by decide, accepted⟩
  · have collects : (build Text.startsInked "n/" "1" none (declaredSignatures (sizePrinted.map stripIndent))
        (sizePrinted.map stripIndent)).outcome =
        .ok (.ofMethods "1" none [("public final int n();", ["n/X.n"])]) := by decide
    have built := (build_single_ok_iff _ _ _ _).mpr ⟨_, collects, rfl⟩
    obtain ⟨next, builtNext, accepted⟩ := acceptsSingle "n/" "1" "2" _ _ _ single built
    exact ⟨_, next, built, builtNext, by decide, accepted⟩

end Disassembly

end BytecodeParity
