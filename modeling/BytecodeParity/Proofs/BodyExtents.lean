import BytecodeParity.Proofs.InputStyles

/-!
The extents of bodies. Every tracked signature has the lines from behind its first occurrence up to
the next line that opens a body; the extents of two signatures never meet, and the lines of a member
that is not tracked stand in none of them.
-/

set_option autoImplicit false

namespace BytecodeParity.Disassembly

structure Extent where
  start : Nat
  stop : Nat
deriving DecidableEq

namespace Extent

def Holds (extent : Extent) (index : Nat) : Prop :=
  extent.start ≤ index ∧ index < extent.stop

def of (extent : Extent) (lines : List String) : List String :=
  (lines.drop extent.start).take (extent.stop - extent.start)

end Extent

def Opens (startsMember : String → Bool) (tracked : List String) (line : String) : Prop :=
  startsMember line ∨ Text.trim line ∈ tracked

theorem is_boundary_iff (startsMember : String → Bool) (tracked : List String) (line : String) :
    isBoundary startsMember tracked line ↔ Opens startsMember tracked line := by
  rw [isBoundary, Bool.or_eq_true, List.contains_iff_mem]
  rfl

-- An extent starts behind the first line with the signature's text, no line in it opens a body, and it
-- is followed by such a line or by the end of the input.
structure IsBody (startsMember : String → Bool) (tracked lines : List String) (signature : String)
    (extent : Extent) : Prop where
  declared : ∃ position line, extent.start = position + 1 ∧ lines[position]? = some line ∧
    Text.trim line = signature ∧
    ∀ earlier other, earlier < position → lines[earlier]? = some other → Text.trim other ≠ signature
  ordered : extent.start ≤ extent.stop
  within : extent.stop ≤ lines.length
  inner : ∀ index line, extent.Holds index → lines[index]? = some line → ¬ Opens startsMember tracked line
  ended : extent.stop = lines.length ∨ ∃ line, lines[extent.stop]? = some line ∧ Opens startsMember tracked line

def bodyExtent (startsMember : String → Bool) (tracked lines : List String) (signature : String) : Extent :=
  let start := lines.findIdx (fun line => Text.trim line = signature) + 1
  ⟨start, start + ((body? startsMember tracked lines signature).getD []).length⟩

section Extents

variable {startsMember : String → Bool} {tracked lines : List String} {signature : String} {extent : Extent}

structure BodyParts (startsMember : String → Bool) (tracked lines : List String) (signature : String)
    (before : List String) (declaration : String) (body after : List String) : Prop where
  lines : lines = before ++ declaration :: (body ++ after)
  first : ∀ line ∈ before, Text.trim line ≠ signature
  declares : Text.trim declaration = signature
  inner : ∀ line ∈ body, ¬ Opens startsMember tracked line
  next : ∀ line ∈ after.head?, Opens startsMember tracked line

theorem body_parts (body : List String) (found : body? startsMember tracked lines signature = some body) :
    ∃ before declaration after, BodyParts startsMember tracked lines signature before declaration body after := by
  have whole := List.takeWhile_append_dropWhile (p := fun line => Text.trim line ≠ signature) (l := lines)
  rw [body?] at found
  split at found
  · cases found
  · next declaration rest behind =>
      obtain rfl := Option.some.inj found
      rw [behind] at whole
      refine ⟨lines.takeWhile fun line => Text.trim line ≠ signature, declaration,
        rest.dropWhile fun line => !isBoundary startsMember tracked line, ?_, ?_, ?_, ?_, ?_⟩
      · rw [List.takeWhile_append_dropWhile]
        exact whole.symm
      · intro line member
        simpa using List.mem_takeWhile_imp member
      · have stopped := List.head?_dropWhile_not (fun line => decide (Text.trim line ≠ signature)) lines
        rw [behind] at stopped
        simpa using stopped
      · intro line member
        have passed := List.mem_takeWhile_imp member
        rw [← is_boundary_iff]
        simpa using passed
      · intro line next
        have stopped := List.head?_dropWhile_not (fun line => !isBoundary startsMember tracked line) rest
        rw [Option.mem_def.mp next] at stopped
        rw [← is_boundary_iff]
        simpa using stopped

theorem get_behind {α : Type} (before rest : List α) (item : α) (index : Nat) :
    (before ++ item :: rest)[before.length + 1 + index]? = rest[index]? := by
  rw [Nat.add_assoc, List.getElem?_append_right (Nat.le_add_right _ _), Nat.add_sub_cancel_left, Nat.add_comm,
    List.getElem?_cons_succ]

section Parts

variable {before body after : List String} {declaration : String}

theorem extent_of_parts
    (parts : BodyParts startsMember tracked lines signature before declaration body after)
    (found : body? startsMember tracked lines signature = some body) :
    bodyExtent startsMember tracked lines signature =
      ⟨before.length + 1, before.length + 1 + body.length⟩ := by
  have position : lines.findIdx (fun line => Text.trim line = signature) = before.length := by
    have absent : before.findIdx (fun line => Text.trim line = signature) = before.length :=
      List.findIdx_eq_length.mpr fun line member => decide_eq_false (parts.first line member)
    rw [parts.lines, List.findIdx_append, absent, if_neg (Nat.lt_irrefl _), List.findIdx_cons,
      decide_eq_true parts.declares]
    simp
  rw [bodyExtent, position, found, Option.getD_some]

theorem is_body_of_parts (parts : BodyParts startsMember tracked lines signature before declaration body after) :
    IsBody startsMember tracked lines signature ⟨before.length + 1, before.length + 1 + body.length⟩ where
  declared := by
    refine ⟨before.length, declaration, rfl, by simp [parts.lines], parts.declares, ?_⟩
    intro earlier other early stands
    rw [parts.lines, List.getElem?_append_left early] at stands
    exact parts.first other (List.mem_of_getElem? stands)
  ordered := Nat.le_add_right _ _
  within := by
    simp only [parts.lines, List.length_append, List.length_cons]
    omega
  inner := by
    rintro index line ⟨start, stop⟩ stands
    obtain ⟨behind, rfl⟩ := Nat.exists_eq_add_of_le start
    rw [parts.lines, get_behind, List.getElem?_append_left (Nat.lt_of_add_lt_add_left stop)] at stands
    exact parts.inner line (List.mem_of_getElem? stands)
  ended := by
    cases after with
    | nil =>
        left
        simp only [parts.lines, List.append_nil, List.length_append, List.length_cons]
        omega
    | cons line rest =>
        right
        refine ⟨line, ?_, parts.next line rfl⟩
        rw [parts.lines, get_behind, List.getElem?_append_right (Nat.le_refl _)]
        simp

theorem lines_of_parts (parts : BodyParts startsMember tracked lines signature before declaration body after) :
    Extent.of ⟨before.length + 1, before.length + 1 + body.length⟩ lines = body := by
  have dropped : lines.drop (before.length + 1) = body ++ after := by
    rw [parts.lines, List.append_cons, List.drop_left' (by simp)]
  rw [Extent.of, dropped, Nat.add_sub_cancel_left, List.take_left' rfl]

end Parts

theorem body_extent (body : List String) (found : body? startsMember tracked lines signature = some body) :
    IsBody startsMember tracked lines signature (bodyExtent startsMember tracked lines signature) ∧
      (bodyExtent startsMember tracked lines signature).of lines = body := by
  obtain ⟨before, declaration, after, parts⟩ := body_parts body found
  rw [extent_of_parts parts found]
  exact ⟨is_body_of_parts parts, lines_of_parts parts⟩

theorem IsBody.stops_at (isBody : IsBody startsMember tracked lines signature extent) (index : Nat)
    (line : String) (stands : lines[index]? = some line) (opens : Opens startsMember tracked line)
    (behind : extent.start ≤ index) : extent.stop ≤ index := by
  by_contra further
  exact isBody.inner index line ⟨behind, Nat.lt_of_not_le further⟩ stands opens

theorem bodies_apart (other : String) (otherExtent : Extent) (known : signature ∈ tracked)
    (otherKnown : other ∈ tracked) (different : signature ≠ other)
    (isBody : IsBody startsMember tracked lines signature extent)
    (otherBody : IsBody startsMember tracked lines other otherExtent) :
    extent.stop < otherExtent.start ∨ otherExtent.stop < extent.start := by
  obtain ⟨position, line, start, stands, text, _⟩ := isBody.declared
  obtain ⟨otherPosition, otherLine, otherStart, otherStands, otherText, _⟩ := otherBody.declared
  have apart : position ≠ otherPosition := by
    intro same
    rw [same, otherStands, Option.some.injEq] at stands
    exact different (text.symm.trans (stands ▸ otherText))
  rcases Nat.lt_or_gt_of_ne apart with earlier | later
  · left
    have stopped := isBody.stops_at otherPosition otherLine otherStands (.inr (otherText ▸ otherKnown)) (by omega)
    omega
  · right
    have stopped := otherBody.stops_at position line stands (.inr (text ▸ known)) (by omega)
    omega

-- A line belongs to a member that is not tracked when that member's is the last line up to it that
-- opens a body.
def OfUntracked (startsMember : String → Bool) (tracked lines : List String) (index : Nat) : Prop :=
  ∃ opening line, opening ≤ index ∧ lines[opening]? = some line ∧ startsMember line ∧ Text.trim line ∉ tracked ∧
    ∀ later other, opening < later → later ≤ index → lines[later]? = some other →
      ¬ Opens startsMember tracked other

theorem IsBody.tracked_only (isBody : IsBody startsMember tracked lines signature extent)
    (known : signature ∈ tracked) (index : Nat) (untracked : OfUntracked startsMember tracked lines index) :
    ¬ extent.Holds index := by
  rintro ⟨behind, before⟩
  obtain ⟨opening, line, upTo, stands, starts, unknown, last⟩ := untracked
  obtain ⟨position, declaration, start, declared, text, _⟩ := isBody.declared
  rcases Nat.lt_trichotomy opening position with earlier | same | later
  · exact last position declaration earlier (by omega) declared (.inr (text ▸ known))
  · rw [same, declared, Option.some.injEq] at stands
    exact unknown (stands ▸ text ▸ known)
  · have stopped := isBody.stops_at opening line stands (.inl starts) (by omega)
    omega

end Extents

structure Allotment (startsMember : String → Bool) (namespacePrefix : String) (tracked lines : List String)
    (record : ClassRecord) (extent : String → Extent) : Prop where
  distinct : record.methods.Nodup
  methods : ∀ signature, signature ∈ record.methods ↔ signature ∈ tracked
  bodies : ∀ signature ∈ record.methods, IsBody startsMember tracked lines signature (extent signature)
  symbols : ∀ signature ∈ record.methods, record.implementation? signature =
    some (((extent signature).of lines).filterMap (symbolOf? namespacePrefix))
  apart : ∀ a ∈ record.methods, ∀ b ∈ record.methods, a ≠ b →
    (extent a).stop < (extent b).start ∨ (extent b).stop < (extent a).start
  once : ∀ index, ∀ a ∈ record.methods, ∀ b ∈ record.methods,
    (extent a).Holds index → (extent b).Holds index → a = b
  untracked : ∀ index, OfUntracked startsMember tracked lines index →
    ∀ signature ∈ record.methods, ¬ (extent signature).Holds index

section Allotment

variable {startsMember : String → Bool} {namespacePrefix version : String} {className : Option String}
  {tracked lines : List String} {record : ClassRecord}

theorem allotment_of_bodies (extent : String → Extent) (distinct : record.methods.Nodup)
    (methods : ∀ signature, signature ∈ record.methods ↔ signature ∈ tracked)
    (bodies : ∀ signature ∈ record.methods, IsBody startsMember tracked lines signature (extent signature))
    (symbols : ∀ signature ∈ record.methods, record.implementation? signature =
      some (((extent signature).of lines).filterMap (symbolOf? namespacePrefix))) :
    Allotment startsMember namespacePrefix tracked lines record extent := by
  have apart : ∀ a ∈ record.methods, ∀ b ∈ record.methods, a ≠ b →
      (extent a).stop < (extent b).start ∨ (extent b).stop < (extent a).start :=
    fun a memberA b memberB different =>
      bodies_apart b _ ((methods a).mp memberA) ((methods b).mp memberB) different (bodies a memberA)
        (bodies b memberB)
  refine ⟨distinct, methods, bodies, symbols, apart, ?_, ?_⟩
  · rintro index a memberA b memberB ⟨behindA, beforeA⟩ ⟨behindB, beforeB⟩
    by_contra different
    rcases apart a memberA b memberB different with earlier | later
    · omega
    · omega
  · exact fun index untracked signature member =>
      (bodies signature member).tracked_only ((methods signature).mp member) index untracked

theorem allotment_of_build
    (built : (build startsMember namespacePrefix version className tracked lines).outcome = .ok record) :
    Allotment startsMember namespacePrefix tracked lines record (bodyExtent startsMember tracked lines) := by
  obtain ⟨found, rfl⟩ := (build_ok_iff _ _ _ _ _ _ _).mp built
  have methods : ∀ signature,
      signature ∈ (builtRecord startsMember namespacePrefix version className tracked lines).methods ↔
        signature ∈ tracked := by
    intro signature
    rw [built_methods, List.mem_eraseDups]
  have extents : ∀ signature ∈ tracked,
      IsBody startsMember tracked lines signature (bodyExtent startsMember tracked lines signature) ∧
        (builtRecord startsMember namespacePrefix version className tracked lines).implementation? signature =
          some (((bodyExtent startsMember tracked lines signature).of lines).filterMap
            (symbolOf? namespacePrefix)) := by
    intro signature known
    obtain ⟨body, present⟩ := Option.isSome_iff_exists.mp (found signature known)
    obtain ⟨isBody, same⟩ := body_extent body present
    rw [same]
    exact ⟨isBody, built_implementation _ _ _ _ _ _ signature known body present⟩
  refine allotment_of_bodies _ (ClassRecord.of_methods_well_formed version className _).1 methods ?_ ?_
  · exact fun signature member => (extents signature ((methods signature).mp member)).1
  · exact fun signature member => (extents signature ((methods signature).mp member)).2

theorem allotment_sorted (extent : String → Extent)
    (allotment : Allotment startsMember namespacePrefix tracked lines record extent) :
    Allotment startsMember namespacePrefix tracked lines record.sortMethods extent := by
  have sorted := record.sort_methods_perm
  refine allotment_of_bodies extent (sorted.nodup_iff.mpr allotment.distinct) ?_ ?_ ?_
  · exact fun signature => sorted.mem_iff.trans (allotment.methods signature)
  · exact fun signature member => allotment.bodies signature (sorted.mem_iff.mp member)
  · exact fun signature member => allotment.symbols signature (sorted.mem_iff.mp member)

end Allotment

-- The listing may name the members in another order than the disassembly has them, and more than once,
-- and the disassembly may hold members that neither style tracks.
theorem bodies_never_leak :
    (∀ (namespacePrefix version className : String) (listing disassembly : List String) (record : ClassRecord),
      (buildListed namespacePrefix version className listing disassembly).outcome = .ok record →
        Allotment isMemberLine namespacePrefix (listedSignatures listing) disassembly record
          (bodyExtent isMemberLine (listedSignatures listing) disassembly)) ∧
    ∀ (namespacePrefix version : String) (disassembly : List String) (record : ClassRecord),
      (buildSingle namespacePrefix version disassembly).outcome = .ok record →
        let lines := disassembly.map stripIndent
        Allotment Text.startsInked namespacePrefix (declaredSignatures lines) lines record
          (bodyExtent Text.startsInked (declaredSignatures lines) lines) := by
  constructor
  · intro namespacePrefix version className listing disassembly record built
    exact allotment_of_build built
  · intro namespacePrefix version disassembly record built
    obtain ⟨collected, collects, rfl⟩ := (build_single_ok_iff _ _ _ _).mp built
    exact allotment_sorted _ (allotment_of_build collects)

def swappedListing : List String :=
  ["class A \x7b", "  public final void b();", "  public final int a();", "  public final void b();", "\x7d"]

def swappedPrinted : List String :=
  ["class A \x7b", "  public final int a();", "    Code:", "   0: get // Field n/X.f", "  static \x7b\x7d;",
    "   0: put // Field n/X.all", "  public final void b();", "   0: call // Method n/Y.h", "\x7d"]

theorem initializer_untracked :
    OfUntracked isMemberLine (listedSignatures swappedListing) swappedPrinted 5 := by
  refine ⟨4, "  static \x7b\x7d;", by decide, by decide, by decide, by decide, ?_⟩
  intro later other behind upTo stands
  obtain rfl : later = 5 := by omega
  obtain rfl := Option.some.inj stands
  rw [← is_boundary_iff]
  decide

theorem bodies_never_leak_swapped :
    (∃ record, (buildListed "n/" "1" "A" swappedListing swappedPrinted).outcome = .ok record ∧
      Allotment isMemberLine "n/" (listedSignatures swappedListing) swappedPrinted record
        (bodyExtent isMemberLine (listedSignatures swappedListing) swappedPrinted) ∧
      record.implementation? "public final int a();" = some ["n/X.f"] ∧
      OfUntracked isMemberLine (listedSignatures swappedListing) swappedPrinted 5 ∧
      ∀ signature ∈ record.methods,
        ¬ (bodyExtent isMemberLine (listedSignatures swappedListing) swappedPrinted signature).Holds 5) ∧
    (bodyExtent isMemberLine (listedSignatures swappedListing) swappedPrinted "public final int a();" = ⟨2, 4⟩ ∧
      bodyExtent isMemberLine (listedSignatures swappedListing) swappedPrinted "public final void b();" = ⟨7, 9⟩) ∧
    ∃ record, (buildSingle "n/" "1" swappedPrinted).outcome = .ok record ∧
      Allotment Text.startsInked "n/" (declaredSignatures (swappedPrinted.map stripIndent))
        (swappedPrinted.map stripIndent) record
        (bodyExtent Text.startsInked (declaredSignatures (swappedPrinted.map stripIndent))
          (swappedPrinted.map stripIndent)) := by
  obtain ⟨listed, single⟩ := bodies_never_leak
  have built : (buildListed "n/" "1" "A" swappedListing swappedPrinted).outcome =
      .ok (.ofMethods "1" (some "A") [("public final void b();", ["n/Y.h"]), ("public final int a();", ["n/X.f"]),
        ("public final void b();", ["n/Y.h"])]) := by decide
  have allotment := listed _ _ _ _ _ _ built
  have builtSingle := single_built "n/" "1" swappedPrinted
  exact ⟨⟨_, built, allotment, by decide, initializer_untracked, allotment.untracked 5 initializer_untracked⟩,
    ⟨by decide, by decide⟩, _, builtSingle, single _ _ _ _ builtSingle⟩

end BytecodeParity.Disassembly
