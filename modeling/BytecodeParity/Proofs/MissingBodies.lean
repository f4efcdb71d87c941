import BytecodeParity.Proofs.InputStyles
import BytecodeParity.Proofs.RecordContents

set_option autoImplicit false

namespace BytecodeParity.Disassembly

def Shows (lines : List String) (signature : String) : Prop :=
  ∃ line ∈ lines, Text.trim line = signature

def FirstAbsent (listing disassembly : List String) (signature : String) : Prop :=
  ∃ earlier declaration later, listing = earlier ++ declaration :: later ∧ isMemberLine declaration ∧
    Text.trim declaration = signature ∧ ¬ Shows disassembly signature ∧
    ∀ other ∈ earlier, isMemberLine other → Shows disassembly (Text.trim other)

section Outcome

variable (namespacePrefix version className : String) (listing disassembly : List String)

theorem body_none_iff (startsMember : String → Bool) (tracked lines : List String) (signature : String) :
    (body? startsMember tracked lines signature).isNone ↔ ¬ Shows lines signature := by
  rw [Shows, ← body_is_some_iff startsMember tracked]
  simp

theorem find_listed (absent : String → Bool) (signature : String) :
    (listedSignatures listing).find? absent = some signature ↔
      ∃ earlier declaration later, listing = earlier ++ declaration :: later ∧ isMemberLine declaration ∧
        Text.trim declaration = signature ∧ absent signature ∧
        ∀ other ∈ earlier, isMemberLine other → absent (Text.trim other) = false := by
  rw [listedSignatures, List.find?_map, List.find?_filter, Option.map_eq_some_iff]
  constructor
  · rintro ⟨declaration, found, rfl⟩
    obtain ⟨accepted, earlier, later, parts, passed⟩ := List.find?_eq_some_iff_append.mp found
    simp only [Function.comp_apply, Bool.decide_and, Bool.decide_eq_true, Bool.and_eq_true] at accepted
    refine ⟨earlier, declaration, later, parts, accepted.1, rfl, accepted.2, fun other member declares => ?_⟩
    simpa [declares] using passed other member
  · rintro ⟨earlier, declaration, later, parts, declares, rfl, missing, passed⟩
    refine ⟨declaration, List.find?_eq_some_iff_append.mpr ⟨?_, earlier, later, parts, ?_⟩, rfl⟩
    · simp [declares, missing]
    · intro other member
      by_cases declaresOther : isMemberLine other
      · simp [passed other member declaresOther]
      · simp [declaresOther]

theorem first_absent_iff (signature : String) :
    (listedSignatures listing).find? (fun signature =>
        (body? isMemberLine (listedSignatures listing) disassembly signature).isNone) = some signature ↔
      FirstAbsent listing disassembly signature := by
  simp only [find_listed, FirstAbsent, body_none_iff, ← Bool.not_eq_true, not_not]

theorem refused_iff (missing : MissingBody) :
    (buildListed namespacePrefix version className listing disassembly).outcome = .error missing ↔
      missing.version = version ∧ missing.className = some className ∧
        FirstAbsent listing disassembly missing.signature := by
  rw [← first_absent_iff, buildListed, build]
  cases found : (listedSignatures listing).find? fun signature =>
      (body? isMemberLine (listedSignatures listing) disassembly signature).isNone with
  | none => simp
  | some signature =>
      simp only [Except.error.injEq, Option.some.injEq]
      constructor
      · rintro rfl
        exact ⟨rfl, rfl, rfl⟩
      · rintro ⟨rfl, same, rfl⟩
        rw [← same]

theorem built_iff :
    (∃ record, (buildListed namespacePrefix version className listing disassembly).outcome = .ok record) ↔
      ∀ declaration ∈ listing, isMemberLine declaration → Shows disassembly (Text.trim declaration) := by
  simp only [buildListed, build_ok_iff, exists_and_left, exists_eq, and_true, body_is_some_iff, listedSignatures,
    List.forall_mem_map, List.mem_filter, and_imp]
  rfl

theorem refused_some_iff :
    (∃ missing, (buildListed namespacePrefix version className listing disassembly).outcome = .error missing) ↔
      ∃ declaration ∈ listing, isMemberLine declaration ∧ ¬ Shows disassembly (Text.trim declaration) := by
  have built := built_iff namespacePrefix version className listing disassembly
  cases outcome : (buildListed namespacePrefix version className listing disassembly).outcome with
  | error missing =>
      simp only [outcome, reduceCtorEq, exists_false, false_iff, not_forall, exists_prop] at built
      exact ⟨fun _ => built, fun _ => ⟨missing, rfl⟩⟩
  | ok record =>
      simp only [outcome, Except.ok.injEq, exists_eq', true_iff] at built
      simpa using built

end Outcome

-- The methods of a record that was built are the listed members, and the listing may repeat them.
theorem build_failure_exact (namespacePrefix version className : String) (listing disassembly : List String) :
    ((∃ missing, (buildListed namespacePrefix version className listing disassembly).outcome = .error missing) ↔
      ∃ declaration ∈ listing, isMemberLine declaration ∧ ¬ Shows disassembly (Text.trim declaration)) ∧
    (∀ missing, (buildListed namespacePrefix version className listing disassembly).outcome = .error missing ↔
      missing.version = version ∧ missing.className = some className ∧
        FirstAbsent listing disassembly missing.signature) ∧
    ((∀ declaration ∈ listing, isMemberLine declaration → Shows disassembly (Text.trim declaration)) →
      ∃ record, (buildListed namespacePrefix version className listing disassembly).outcome = .ok record ∧
        FirstOccurrences ((listing.filter isMemberLine).map Text.trim) record.methods ∧
        ∀ declaration ∈ listing, isMemberLine declaration → Text.trim declaration ∈ record.methods) := by
  refine ⟨refused_some_iff _ _ _ _ _, refused_iff _ _ _ _ _, fun shown => ?_⟩
  obtain ⟨record, built⟩ := (built_iff namespacePrefix version className listing disassembly).mpr shown
  obtain ⟨_, made⟩ := (build_ok_iff _ _ _ _ _ _ _).mp built
  have first : FirstOccurrences (listedSignatures listing) record.methods := by
    rw [made, built_methods]
    exact erase_dups_first _
  refine ⟨record, built, first, fun declaration listed declares => ?_⟩
  exact (first.members _).mpr (List.mem_map_of_mem (List.mem_filter.mpr ⟨listed, declares⟩))

def repeatingListing : List String :=
  ["class A \x7b", "  int b();", "  int a();", "  int b();", "  void c();", "\x7d"]

def partlyPrinted : List String :=
  ["class A \x7b", "  int b();", "    Code:", "\x7d"]

theorem build_failure_exact_repeating :
    (∃ missing, (buildListed "n/" "1" "A" repeatingListing partlyPrinted).outcome = .error missing ∧
      missing.signature = "int a();" ∧ FirstAbsent repeatingListing partlyPrinted "int a();") ∧
    ∃ record, (buildListed "n/" "1" "A" repeatingListing (partlyPrinted ++ repeatingListing)).outcome = .ok record ∧
      record.methods = ["int b();", "int a();", "void c();"] ∧
      FirstOccurrences ["int b();", "int a();", "int b();", "void c();"] record.methods := by
  constructor
  · obtain ⟨_, named, _⟩ := build_failure_exact "n/" "1" "A" repeatingListing partlyPrinted
    have refused : (buildListed "n/" "1" "A" repeatingListing partlyPrinted).outcome =
        .error ⟨"1", some "A", "int a();"⟩ := by decide
    exact ⟨_, refused, rfl, ((named _).mp refused).2.2⟩
  · obtain ⟨_, _, complete⟩ := build_failure_exact "n/" "1" "A" repeatingListing (partlyPrinted ++ repeatingListing)
    have shown : ∀ declaration ∈ repeatingListing, isMemberLine declaration →
        Shows (partlyPrinted ++ repeatingListing) (Text.trim declaration) := fun declaration listed _ =>
      ⟨declaration, List.mem_append_right _ listed, rfl⟩
    obtain ⟨record, built, first, _⟩ := complete shown
    have printed : (buildListed "n/" "1" "A" repeatingListing (partlyPrinted ++ repeatingListing)).outcome =
        .ok (.ofMethods "1" (some "A") [("int b();", []), ("int a();", []), ("int b();", []), ("void c();", [])]) := by
      decide
    obtain rfl := Except.ok.inj (built.symm.trans printed)
    exact ⟨_, printed, by decide, first⟩

end BytecodeParity.Disassembly
