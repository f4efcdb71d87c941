import BytecodeParity.Proofs.BodyExtents
import BytecodeParity.Proofs.SingleRecords

set_option autoImplicit false

namespace BytecodeParity

theorem find_of_perm {α : Type} (test : α → Bool) (items moved : List α) (perm : items.Perm moved)
    (once : items.countP test ≤ 1) : items.find? test = moved.find? test := by
  have kept := perm.filter test
  rw [List.countP_eq_length_filter] at once
  rw [← List.head?_filter, ← List.head?_filter]
  cases found : items.filter test with
  | nil =>
      rw [found] at kept
      rw [kept.nil_eq]
  | cons item rest =>
      rw [found] at kept once
      obtain rfl : rest = [] := List.eq_nil_of_length_eq_zero (by simpa using once)
      rw [List.singleton_perm.mp kept]

namespace Disassembly

structure IsCut (startsMember : String → Bool) (tracked lines head : List String) (blocks : List MemberBlock) :
    Prop where
  lines : lines = head ++ blocks.flatMap (·.lines)
  head : ∀ line ∈ head, ¬ Opens startsMember tracked line
  opens : ∀ block ∈ blocks, Opens startsMember tracked block.declaration
  inner : ∀ block ∈ blocks, ∀ line ∈ block.inner, ¬ Opens startsMember tracked line

instance (startsMember : String → Bool) (tracked : List String) (line : String) :
    Decidable (Opens startsMember tracked line) :=
  decidable_of_iff _ (is_boundary_iff startsMember tracked line)

def StandsOnce (tracked lines : List String) : Prop :=
  ∀ signature ∈ tracked, lines.countP (fun line => Text.trim line = signature) ≤ 1

section Cut

variable {startsMember : String → Bool} {tracked lines head : List String} {blocks moved : List MemberBlock}

theorem exists_cut (startsMember : String → Bool) (tracked lines : List String) :
    ∃ head blocks, IsCut startsMember tracked lines head blocks := by
  induction lines with
  | nil => exact ⟨[], [], rfl, by simp, by simp, by simp⟩
  | cons line lines ih =>
      obtain ⟨head, blocks, cut⟩ := ih
      by_cases opens : Opens startsMember tracked line
      · refine ⟨[], ⟨line, head⟩ :: blocks, ?_, by simp, ?_, ?_⟩
        · rw [cut.lines]
          rfl
        · exact List.forall_mem_cons.mpr ⟨opens, cut.opens⟩
        · exact List.forall_mem_cons.mpr ⟨cut.head, cut.inner⟩
      · refine ⟨line :: head, blocks, ?_, List.forall_mem_cons.mpr ⟨opens, cut.head⟩, cut.opens, cut.inner⟩
        rw [cut.lines]
        rfl

theorem IsCut.tail {block : MemberBlock} (cut : IsCut startsMember tracked lines head (block :: blocks)) :
    IsCut startsMember tracked (blocks.flatMap (·.lines)) [] blocks where
  lines := rfl
  head := by simp
  opens := (List.forall_mem_cons.mp cut.opens).2
  inner := (List.forall_mem_cons.mp cut.inner).2

theorem untracked_of_quiet (line signature : String) (quiet : ¬ Opens startsMember tracked line)
    (known : signature ∈ tracked) : Text.trim line ≠ signature :=
  fun same => quiet (.inr (same ▸ known))

theorem inner_of_block (block : MemberBlock) (cut : IsCut startsMember tracked lines head (block :: blocks)) :
    (block.inner ++ blocks.flatMap (·.lines)).takeWhile (fun line => !isBoundary startsMember tracked line) =
      block.inner := by
  have quiet : ∀ line ∈ block.inner, (!isBoundary startsMember tracked line) = true := by
    intro line member
    have inner := cut.inner block List.mem_cons_self line member
    rw [← is_boundary_iff] at inner
    simpa using inner
  rw [List.takeWhile_append_of_pos quiet]
  cases blocks with
  | nil => simp
  | cons next rest =>
      have opens := (is_boundary_iff startsMember tracked next.declaration).mpr
        (cut.opens next (List.mem_cons_of_mem _ List.mem_cons_self))
      simp [MemberBlock.lines, opens]

theorem body_of_cut (cut : IsCut startsMember tracked lines head blocks) (signature : String)
    (known : signature ∈ tracked) :
    body? startsMember tracked lines signature =
      (blocks.find? fun block => Text.trim block.declaration = signature).map (·.inner) := by
  rw [cut.lines, body_behind startsMember tracked head _ signature fun line member =>
    untracked_of_quiet line signature (cut.head line member) known]
  induction blocks generalizing lines head with
  | nil => rfl
  | cons block blocks ih =>
      by_cases declares : Text.trim block.declaration = signature
      · subst declares
        have found := body_of_declaration startsMember tracked [] (block.inner ++ blocks.flatMap (·.lines))
          block.declaration (by simp)
        rw [inner_of_block block cut] at found
        simpa [MemberBlock.lines] using found
      · have others : ∀ line ∈ block.lines, Text.trim line ≠ signature := by
          refine List.forall_mem_cons.mpr ⟨declares, fun line member => ?_⟩
          exact untracked_of_quiet line signature (cut.inner block List.mem_cons_self line member) known
        rw [List.flatMap_cons, body_behind _ _ _ _ _ others, ih cut.tail]
        simp [declares]

theorem IsCut.move (cut : IsCut startsMember tracked lines head blocks) (perm : blocks.Perm moved) :
    IsCut startsMember tracked (head ++ moved.flatMap (·.lines)) head moved where
  lines := rfl
  head := cut.head
  opens block member := cut.opens block (perm.mem_iff.mpr member)
  inner block member := cut.inner block (perm.mem_iff.mpr member)

theorem IsCut.retracked {others : List String} (cut : IsCut startsMember tracked lines head blocks)
    (same : ∀ signature, signature ∈ others ↔ signature ∈ tracked) :
    IsCut startsMember others lines head blocks where
  lines := cut.lines
  head line member := by
    rw [Opens, same]
    exact cut.head line member
  opens block member := by
    rw [Opens, same]
    exact cut.opens block member
  inner block member line inner := by
    rw [Opens, same]
    exact cut.inner block member line inner

theorem declarations_sublist (blocks : List MemberBlock) :
    (blocks.map (·.declaration)).Sublist (blocks.flatMap (·.lines)) := by
  induction blocks with
  | nil => exact List.nil_sublist _
  | cons block blocks ih => exact (ih.trans (List.sublist_append_right block.inner _)).cons_cons block.declaration

theorem IsCut.once (cut : IsCut startsMember tracked lines head blocks) (once : StandsOnce tracked lines)
    (signature : String) (known : signature ∈ tracked) :
    blocks.countP (fun block => Text.trim block.declaration = signature) ≤ 1 := by
  have declarations : (blocks.map (·.declaration)).Sublist lines := by
    rw [cut.lines]
    exact (declarations_sublist blocks).trans (List.sublist_append_right head _)
  have within := declarations.countP_le (p := fun line => decide (Text.trim line = signature))
  simp only [List.countP_map, Function.comp_def] at within
  exact Nat.le_trans within (once signature known)

-- The last block ends where the lines end, the others at the next block: neither shows in a body.
theorem body_of_moved (cut : IsCut startsMember tracked lines head blocks) (once : StandsOnce tracked lines)
    (perm : blocks.Perm moved) (signature : String) (known : signature ∈ tracked) :
    body? startsMember tracked lines signature =
      body? startsMember tracked (head ++ moved.flatMap (·.lines)) signature := by
  rw [body_of_cut cut signature known, body_of_cut (cut.move perm) signature known,
    find_of_perm _ blocks moved perm (cut.once once signature known)]

end Cut

theorem outcome_of_bodies (startsMember : String → Bool) (namespacePrefix version : String)
    (className : Option String) (signatures lines others : List String)
    (same : ∀ signature ∈ signatures,
      body? startsMember signatures lines signature = body? startsMember signatures others signature) :
    (build startsMember namespacePrefix version className signatures lines).outcome =
      (build startsMember namespacePrefix version className signatures others).outcome := by
  have read := outcome_of_symbols startsMember namespacePrefix version className signatures
  rw [read lines _ fun signature known => congrArg _ (same signature known), read others _ fun _ _ => rfl]

theorem single_moved (namespacePrefix version later : String) (disassembly other head : List String)
    (blocks moved : List MemberBlock)
    (cut : IsCut Text.startsInked (declaredSignatures (disassembly.map stripIndent)) (disassembly.map stripIndent)
      head blocks)
    (once : StandsOnce (declaredSignatures (disassembly.map stripIndent)) (disassembly.map stripIndent))
    (perm : blocks.Perm moved) (rearranged : other.map stripIndent = head ++ moved.flatMap (·.lines)) :
    ∃ record next, (buildSingle namespacePrefix version disassembly).outcome = .ok record ∧
      (buildSingle namespacePrefix later other).outcome = .ok next ∧ record.StructurallyEqual next := by
  have lines : (disassembly.map stripIndent).Perm (other.map stripIndent) := by
    rw [rearranged, cut.lines]
    exact (perm.flatMap_right _).append_left head
  have tracked : (declaredSignatures (disassembly.map stripIndent)).Perm
      (declaredSignatures (other.map stripIndent)) := (lines.filter isDeclaration).map Text.trim
  have cutMoved := (cut.move perm).retracked fun signature => tracked.mem_iff.symm
  rw [← rearranged] at cutMoved
  have built := single_built namespacePrefix version disassembly
  have builtMoved := single_built namespacePrefix later other
  refine ⟨_, _, built, builtMoved, ?_, ?_⟩
  · refine ClassRecord.sort_methods_eq _ _ ?_ (ClassRecord.sort_methods_ascending _)
    refine .trans ?_ (ClassRecord.sort_methods_perm _).symm
    rw [built_methods, built_methods, List.perm_ext_iff_of_nodup (erase_dups_nodup _) (erase_dups_nodup _)]
    intro signature
    rw [List.mem_eraseDups, List.mem_eraseDups, tracked.mem_iff]
  · apply SymbolTable.eq_of_find
    intro signature
    rw [ClassRecord.sortMethods, ClassRecord.sortMethods, built_find, built_find]
    by_cases known : signature ∈ declaredSignatures (disassembly.map stripIndent)
    · rw [if_pos known, if_pos (tracked.mem_iff.mp known), body_of_cut cut signature known,
        body_of_cut cutMoved signature (tracked.mem_iff.mp known),
        find_of_perm _ blocks moved perm (cut.once once signature known)]
    · rw [if_neg known, if_neg (mt tracked.mem_iff.mpr known)]

-- A cut always exists, so both laws are about every disassembly. A single one is known by its stripped
-- lines: the characters in front of them count for nothing and need not move along.
theorem member_order_irrelevant :
    (∀ (startsMember : String → Bool) (tracked lines : List String), ∃ head blocks,
      IsCut startsMember tracked lines head blocks) ∧
    (∀ (namespacePrefix version className : String) (listing disassembly head : List String)
      (blocks moved : List MemberBlock),
      IsCut isMemberLine (listedSignatures listing) disassembly head blocks →
      StandsOnce (listedSignatures listing) disassembly → blocks.Perm moved →
        (buildListed namespacePrefix version className listing (head ++ moved.flatMap (·.lines))).outcome =
          (buildListed namespacePrefix version className listing disassembly).outcome) ∧
    ∀ (namespacePrefix version later : String) (disassembly other head : List String)
      (blocks moved : List MemberBlock),
      let lines := disassembly.map stripIndent
      IsCut Text.startsInked (declaredSignatures lines) lines head blocks →
      StandsOnce (declaredSignatures lines) lines → blocks.Perm moved →
      other.map stripIndent = head ++ moved.flatMap (·.lines) →
        ∃ record next, (buildSingle namespacePrefix version disassembly).outcome = .ok record ∧
          (buildSingle namespacePrefix later other).outcome = .ok next ∧ record.StructurallyEqual next := by
  refine ⟨exists_cut, ?_, single_moved⟩
  intro namespacePrefix version className listing disassembly head blocks moved cut once perm
  exact (outcome_of_bodies _ _ _ _ _ _ _ (body_of_moved cut once perm)).symm

def swappedBlocks : List MemberBlock :=
  [⟨"  public final int a();", ["    Code:", "   0: get // Field n/X.f"]⟩,
    ⟨"  static \x7b\x7d;", ["   0: put // Field n/X.all"]⟩,
    ⟨"  public final void b();", ["   0: call // Method n/Y.h", "\x7d"]⟩]

def outdentedBlocks : List MemberBlock :=
  [⟨"ass A \x7b", []⟩, ⟨"public final int a();", ["  Code:", " 0: get // Field n/X.f"]⟩,
    ⟨"static \x7b\x7d;", [" 0: put // Field n/X.all"]⟩,
    ⟨"public final void b();", [" 0: call // Method n/Y.h"]⟩, ⟨"\x7d", []⟩]

def reversedPrinted : List String :=
  ["\x7d", "  public final void b();", "   0: call // Method n/Y.h", "  static \x7b\x7d;",
    "   0: put // Field n/X.all", "  public final int a();", "    Code:", "   0: get // Field n/X.f", "class A \x7b"]

theorem member_order_irrelevant_reversed :
    (swappedBlocks.reverse.map (·.declaration) =
        ["  public final void b();", "  static \x7b\x7d;", "  public final int a();"] ∧
      (buildListed "n/" "1" "A" swappedListing
        (["class A \x7b"] ++ swappedBlocks.reverse.flatMap (·.lines))).outcome =
          (buildListed "n/" "1" "A" swappedListing swappedPrinted).outcome) ∧
    ∃ record next, (buildSingle "n/" "1" swappedPrinted).outcome = .ok record ∧
      (buildSingle "n/" "2" reversedPrinted).outcome = .ok next ∧ record.StructurallyEqual next := by
  obtain ⟨-, listed, single⟩ := member_order_irrelevant
  have cut : IsCut isMemberLine (listedSignatures swappedListing) swappedPrinted ["class A \x7b"] swappedBlocks :=
    ⟨by decide, by decide, by decide, by decide⟩
  have outdented : IsCut Text.startsInked (declaredSignatures (swappedPrinted.map stripIndent))
      (swappedPrinted.map stripIndent) [] outdentedBlocks :=
    ⟨by decide, by decide, by decide, by decide⟩
  have listedOnce : StandsOnce (listedSignatures swappedListing) swappedPrinted := by
    unfold StandsOnce
    decide
  have declaredOnce : StandsOnce (declaredSignatures (swappedPrinted.map stripIndent))
      (swappedPrinted.map stripIndent) := by
    unfold StandsOnce
    decide
  refine ⟨⟨rfl, ?_⟩, ?_⟩
  · exact listed "n/" "1" "A" _ _ _ _ _ cut listedOnce (List.reverse_perm _).symm
  · exact single "n/" "1" "2" _ _ _ _ _ outdented declaredOnce (List.reverse_perm _).symm (by decide)

end Disassembly

end BytecodeParity
