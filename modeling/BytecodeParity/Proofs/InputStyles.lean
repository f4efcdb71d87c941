import Mathlib.Data.List.TakeWhile
import BytecodeParity.Proofs.DisassemblyView
import BytecodeParity.Proofs.Printout

/-!
The two input styles on one disassembly. A signature listing tracks other methods than the modifiers
do, and the two styles see other texts and end bodies at other lines; a method that both track still
refers to the same symbols in both records.
-/

set_option autoImplicit false

namespace BytecodeParity

structure MemberBlock where
  declaration : String
  inner : List String

def MemberBlock.lines (block : MemberBlock) : List String :=
  block.declaration :: block.inner

structure ClassDump where
  head : List String
  blocks : List MemberBlock
  closed : Bool

namespace ClassDump

def closing (dump : ClassDump) : List String :=
  if dump.closed then ["\x7d"] else []

def lines (dump : ClassDump) : List String :=
  dump.head ++ dump.blocks.flatMap (·.lines) ++ dump.closing

structure WellFormed (dump : ClassDump) : Prop where
  head : ∀ line ∈ dump.head, ¬ Disassembly.isDeclaration (Disassembly.stripIndent line)
  members : ∀ block ∈ dump.blocks, Disassembly.isMemberLine block.declaration
  inner : ∀ block ∈ dump.blocks, ∀ line ∈ block.inner, line = "" ∨ "   ".toList <+: line.toList

structure Listed (dump : ClassDump) (signatures : List String) : Prop where
  declared : ∀ block ∈ dump.blocks, Disassembly.isDeclaration (Disassembly.stripIndent block.declaration) →
    Text.trim block.declaration ∈ signatures
  found : ∀ signature ∈ signatures, ∃ line ∈ dump.lines, Text.trim line = signature
  clearOfHead : ∀ line ∈ dump.head, Text.trim line ∉ signatures
  clearOfStrippedHead : ∀ line ∈ dump.head, Text.trim (Disassembly.stripIndent line) ∉ signatures
  clearOfInner : ∀ block ∈ dump.blocks, ∀ line ∈ block.inner, Text.trim line ∉ signatures

end ClassDump

namespace Disassembly

def Indented (line : String) : Prop :=
  line = "" ∨ ∃ c rest, line.toList = ' ' :: ' ' :: c :: rest

theorem strip_indent_chars (line : String) (c : Char) (rest : List Char)
    (chars : line.toList = ' ' :: ' ' :: c :: rest) : stripIndent line = String.ofList (c :: rest) := by
  simp [stripIndent, chars]

theorem trim_stripped (line : String) (indented : Indented line) : Text.trim (stripIndent line) = Text.trim line := by
  rcases indented with rfl | ⟨c, rest, chars⟩
  · rfl
  · have space : Text.isBlank ' ' := by decide
    have blank : ∀ c ∈ [' ', ' '], Text.isBlank c := by simp [space]
    have dropped := Text.drop_blanks_indented [' ', ' '] (c :: rest) blank
    rw [strip_indent_chars line c rest chars, Text.trim, Text.trim, chars, String.toList_ofList, Text.trimChars,
      Text.trimChars, ← dropped]
    rfl

-- The comment stands behind the indent, so it is not cut.
theorem symbol_stripped (namespacePrefix line : String) (indented : Indented line) :
    symbolOf? namespacePrefix (stripIndent line) = symbolOf? namespacePrefix line := by
  have behind : ∀ cs, (Text.cutAt Mention.commentMarker (' ' :: cs)).map (·.2) =
      (Text.cutAt Mention.commentMarker cs).map (·.2) := by
    intro cs
    rw [Text.cutAt, if_neg (by simp [Mention.commentMarker]), Option.map_map]
    rfl
  apply Mention.symbol_eq_of_comment
  rcases indented with rfl | ⟨c, rest, chars⟩
  · rfl
  · rw [strip_indent_chars line c rest chars, Mention.comment?, Mention.comment?, chars, String.toList_ofList,
      behind, behind]

theorem member_line_chars (line : String) (member : isMemberLine line) :
    ∃ c rest, line.toList = ' ' :: ' ' :: c :: rest ∧ Text.isBlank c = false := by
  rw [isMemberLine] at member
  split at member
  · next rest chars =>
      cases rest with
      | nil => simp [Text.startsInked] at member
      | cons c rest => exact ⟨c, rest, chars, by simpa [Text.startsInked] using member⟩
  · cases member

theorem inner_line_chars (line : String) (inner : line = "" ∨ "   ".toList <+: line.toList) :
    line = "" ∨ ∃ rest, line.toList = ' ' :: ' ' :: ' ' :: rest := by
  rcases inner with empty | ⟨rest, chars⟩
  · exact .inl empty
  · exact .inr ⟨rest, chars.symm⟩

structure Style where
  preprocess : String → String
  startsMember : String → Bool

def Style.listed : Style := ⟨id, isMemberLine⟩

def Style.single : Style := ⟨stripIndent, Text.startsInked⟩

structure Style.Reads (style : Style) (namespacePrefix : String) (tracked : List String) (dump : ClassDump) :
    Prop where
  opens : ∀ block ∈ dump.blocks, style.startsMember (style.preprocess block.declaration)
  quiet : ∀ block ∈ dump.blocks, ∀ line ∈ block.inner,
    isBoundary style.startsMember tracked (style.preprocess line) = false
  text : ∀ block ∈ dump.blocks, ∀ line ∈ block.lines, Text.trim (style.preprocess line) = Text.trim line
  symbol : ∀ block ∈ dump.blocks, ∀ line ∈ block.inner,
    symbolOf? namespacePrefix (style.preprocess line) = symbolOf? namespacePrefix line
  closing : style.preprocess "\x7d" = "\x7d"

section Reads

variable {style : Style} {namespacePrefix : String} {tracked : List String} {dump : ClassDump}

-- Behind a block either the next one is opened at once or only the closing line follows.
theorem symbols_behind_block (reads : style.Reads namespacePrefix tracked dump) (later : List MemberBlock)
    (known : ∀ block ∈ later, block ∈ dump.blocks) :
    (((later.flatMap (·.lines) ++ dump.closing).map style.preprocess).takeWhile fun line =>
      !isBoundary style.startsMember tracked line).filterMap (symbolOf? namespacePrefix) = [] := by
  cases later with
  | cons next rest =>
      have opens : isBoundary style.startsMember tracked (style.preprocess next.declaration) := by
        rw [isBoundary, reads.opens next (known next List.mem_cons_self), Bool.true_or]
      simp [MemberBlock.lines, opens]
  | nil =>
      have silent : symbolOf? namespacePrefix "\x7d" = none :=
        symbol_of_unmarked namespacePrefix "\x7d" (by simp [Mention.commentMarker, List.infix_cons_iff])
      rw [List.flatMap_nil, List.nil_append, ClassDump.closing]
      cases dump.closed with
      | false => rfl
      | true =>
          rw [if_pos rfl, List.map_singleton, reads.closing, List.takeWhile_cons, List.takeWhile_nil]
          split
          · rw [List.filterMap_cons_none silent, List.filterMap_nil]
          · rfl

theorem body_of_first_block (reads : style.Reads namespacePrefix tracked dump) (earlier later : List MemberBlock)
    (block : MemberBlock) (parts : dump.blocks = earlier ++ block :: later)
    (clearOfHead : ∀ line ∈ dump.head, Text.trim (style.preprocess line) ≠ Text.trim block.declaration)
    (clearOfEarlier : ∀ other ∈ earlier, ∀ line ∈ other.lines, Text.trim line ≠ Text.trim block.declaration) :
    ∃ body, body? style.startsMember tracked (dump.lines.map style.preprocess) (Text.trim block.declaration) =
        some body ∧
      body.filterMap (symbolOf? namespacePrefix) = block.inner.filterMap (symbolOf? namespacePrefix) := by
  have known : block ∈ dump.blocks := by simp [parts]
  have declaration : Text.trim (style.preprocess block.declaration) = Text.trim block.declaration :=
    reads.text block known _ List.mem_cons_self
  have lines : dump.lines.map style.preprocess =
      (dump.head ++ earlier.flatMap (·.lines)).map style.preprocess ++ style.preprocess block.declaration ::
        (block.inner.map style.preprocess ++ (later.flatMap (·.lines) ++ dump.closing).map style.preprocess) := by
    simp [ClassDump.lines, parts, MemberBlock.lines]
  -- The search for the body stops at this declaration: no line in front of it has its text.
  have before : ∀ line ∈ (dump.head ++ earlier.flatMap (·.lines)).map style.preprocess,
      Text.trim line ≠ Text.trim (style.preprocess block.declaration) := by
    intro line member
    obtain ⟨printed, inBefore, rfl⟩ := List.mem_map.mp member
    rw [declaration]
    rcases List.mem_append.mp inBefore with inHead | inEarlier
    · exact clearOfHead printed inHead
    · obtain ⟨other, inEarlier, inOther⟩ := List.mem_flatMap.mp inEarlier
      have otherKnown : other ∈ dump.blocks := by simp [parts, inEarlier]
      rw [reads.text other otherKnown printed inOther]
      exact clearOfEarlier other inEarlier printed inOther
  have inner : ∀ line ∈ block.inner.map style.preprocess,
      (!isBoundary style.startsMember tracked line) = true := by
    intro line member
    obtain ⟨printed, inInner, rfl⟩ := List.mem_map.mp member
    rw [reads.quiet block known printed inInner]
    rfl
  have found := body_of_declaration style.startsMember tracked _
    (block.inner.map style.preprocess ++ (later.flatMap (·.lines) ++ dump.closing).map style.preprocess)
    (style.preprocess block.declaration) before
  rw [← lines, declaration, List.takeWhile_append_of_pos inner] at found
  have knownLater : ∀ other ∈ later, other ∈ dump.blocks := fun other member => by simp [parts, member]
  refine ⟨_, found, ?_⟩
  rw [List.filterMap_append, symbols_behind_block reads later knownLater, List.append_nil, List.filterMap_map]
  exact List.filterMap_congr fun line member => reads.symbol block known line member

end Reads

theorem block_line_indented (dump : ClassDump) (wellFormed : dump.WellFormed) (block : MemberBlock)
    (known : block ∈ dump.blocks) (line : String) (member : line ∈ block.lines) : Indented line := by
  rcases List.mem_cons.mp member with rfl | inner
  · obtain ⟨c, rest, chars, _⟩ := member_line_chars _ (wellFormed.members block known)
    exact .inr ⟨c, rest, chars⟩
  · rcases inner_line_chars line (wellFormed.inner block known line inner) with empty | ⟨rest, chars⟩
    · exact .inl empty
    · exact .inr ⟨' ', rest, chars⟩

theorem not_boundary_of_clear (startsMember : String → Bool) (tracked : List String) (line : String)
    (starts : startsMember line = false) (clear : Text.trim line ∉ tracked) :
    isBoundary startsMember tracked line = false := by
  rw [isBoundary, starts, Bool.false_or, ← Bool.not_eq_true, List.contains_iff_mem]
  exact clear

theorem listed_reads (namespacePrefix : String) (signatures : List String) (dump : ClassDump)
    (wellFormed : dump.WellFormed) (listed : dump.Listed signatures) :
    Style.listed.Reads namespacePrefix signatures dump where
  opens := wellFormed.members
  quiet block known line inner := by
    apply not_boundary_of_clear _ _ _ _ (listed.clearOfInner block known line inner)
    simp only [Style.listed, isMemberLine]
    rcases inner_line_chars line (wellFormed.inner block known line inner) with rfl | ⟨rest, chars⟩
    · rfl
    · simp [chars, Text.startsInked, Text.isBlank]
  text block known line member := rfl
  symbol block known line inner := rfl
  closing := rfl

theorem single_reads (namespacePrefix : String) (signatures tracked : List String) (dump : ClassDump)
    (wellFormed : dump.WellFormed) (listed : dump.Listed signatures)
    (within : ∀ signature ∈ tracked, signature ∈ signatures) :
    Style.single.Reads namespacePrefix tracked dump where
  opens block known := by
    obtain ⟨c, rest, chars, inked⟩ := member_line_chars _ (wellFormed.members block known)
    simp [Style.single, strip_indent_chars _ c rest chars, Text.startsInked, inked]
  quiet block known line inner := by
    have indented := block_line_indented dump wellFormed block known line (List.mem_cons_of_mem _ inner)
    apply not_boundary_of_clear
    · rcases inner_line_chars line (wellFormed.inner block known line inner) with rfl | ⟨rest, chars⟩
      · rfl
      · simp [Style.single, strip_indent_chars line ' ' rest chars, Text.startsInked, Text.isBlank]
    · rw [Style.single, trim_stripped line indented]
      exact fun known' => listed.clearOfInner block known line inner (within _ known')
  text block known line member := trim_stripped line (block_line_indented dump wellFormed block known line member)
  symbol block known line inner :=
    symbol_stripped namespacePrefix line
      (block_line_indented dump wellFormed block known line (List.mem_cons_of_mem _ inner))
  closing := by decide

theorem body_is_some_iff (startsMember : String → Bool) (tracked lines : List String) (signature : String) :
    (body? startsMember tracked lines signature).isSome ↔ ∃ line ∈ lines, Text.trim line = signature := by
  have absent : lines.dropWhile (fun line => Text.trim line ≠ signature) = [] ↔
      ¬ ∃ line ∈ lines, Text.trim line = signature := by
    simp [List.dropWhile_eq_nil_iff]
  rw [body?]
  split
  · next nothing => simpa using absent.mp nothing
  · next first rest something =>
      rw [something] at absent
      simpa using absent

theorem built_implementation (startsMember : String → Bool) (namespacePrefix version : String)
    (className : Option String) (signatures lines : List String) (signature : String) (known : signature ∈ signatures)
    (body : List String) (found : body? startsMember signatures lines signature = some body) :
    (builtRecord startsMember namespacePrefix version className signatures lines).implementation? signature =
      some (body.filterMap (symbolOf? namespacePrefix)) := by
  rw [ClassRecord.implementation?, built_find, if_pos known, found, Option.getD_some]

theorem declared_by_block (dump : ClassDump) (wellFormed : dump.WellFormed) (signature : String)
    (declared : signature ∈ declaredSignatures (dump.lines.map stripIndent)) :
    ∃ block ∈ dump.blocks, isDeclaration (stripIndent block.declaration) ∧
      Text.trim block.declaration = signature := by
  obtain ⟨stripped, member, rfl⟩ := List.mem_map.mp declared
  obtain ⟨inLines, declares⟩ := List.mem_filter.mp member
  obtain ⟨line, printed, rfl⟩ := List.mem_map.mp inLines
  rw [ClassDump.lines, List.mem_append, List.mem_append] at printed
  rcases printed with (inHead | inBlocks) | inClosing
  · exact absurd declares (wellFormed.head line inHead)
  · obtain ⟨block, known, inBlock⟩ := List.mem_flatMap.mp inBlocks
    have indented := block_line_indented dump wellFormed block known line inBlock
    rcases List.mem_cons.mp inBlock with rfl | inner
    · exact ⟨block, known, declares, (trim_stripped _ indented).symm⟩
    · have inked := declaration_inked _ declares
      rcases inner_line_chars line (wellFormed.inner block known line inner) with rfl | ⟨rest, chars⟩
      · cases inked
      · simp [strip_indent_chars line ' ' rest chars, Text.startsInked, Text.isBlank] at inked
  · rw [ClassDump.closing] at inClosing
    split at inClosing
    · rw [List.mem_singleton.mp inClosing] at declares
      have undeclared : ¬ isDeclaration (stripIndent "\x7d") := by decide
      exact absurd declares undeclared
    · cases inClosing

theorem first_block (blocks : List MemberBlock) (signature : String)
    (present : ∃ block ∈ blocks, Text.trim block.declaration = signature) :
    ∃ earlier block later, blocks = earlier ++ block :: later ∧ Text.trim block.declaration = signature ∧
      ∀ other ∈ earlier, Text.trim other.declaration ≠ signature := by
  have found : (blocks.find? fun block => Text.trim block.declaration = signature).isSome := by
    simpa [List.find?_isSome] using present
  obtain ⟨block, first⟩ := Option.isSome_iff_exists.mp found
  obtain ⟨declares, earlier, later, parts, before⟩ := List.find?_eq_some_iff_append.mp first
  refine ⟨earlier, block, later, parts, of_decide_eq_true declares, fun other member => ?_⟩
  simpa using before other member

theorem body_in_style (style : Style) (namespacePrefix : String) (signatures tracked : List String) (dump : ClassDump)
    (reads : style.Reads namespacePrefix tracked dump) (listed : dump.Listed signatures) (signature : String)
    (known : signature ∈ signatures)
    (clearOfHead : ∀ line ∈ dump.head, Text.trim (style.preprocess line) ∉ signatures)
    (earlier later : List MemberBlock) (block : MemberBlock) (parts : dump.blocks = earlier ++ block :: later)
    (declares : Text.trim block.declaration = signature)
    (first : ∀ other ∈ earlier, Text.trim other.declaration ≠ signature) :
    ∃ body, body? style.startsMember tracked (dump.lines.map style.preprocess) signature = some body ∧
      body.filterMap (symbolOf? namespacePrefix) = block.inner.filterMap (symbolOf? namespacePrefix) := by
  subst declares
  apply body_of_first_block reads earlier later block parts
  · intro line inHead same
    exact clearOfHead line inHead (same ▸ known)
  · intro other inEarlier line inOther same
    rcases List.mem_cons.mp inOther with rfl | inner
    · exact first other inEarlier same
    · have otherKnown : other ∈ dump.blocks := by simp [parts, inEarlier]
      exact listed.clearOfInner other otherKnown line inner (same ▸ known)

theorem single_built (namespacePrefix version : String) (disassembly : List String) :
    (buildSingle namespacePrefix version disassembly).outcome =
      .ok (builtRecord Text.startsInked namespacePrefix version none
        (declaredSignatures (disassembly.map stripIndent)) (disassembly.map stripIndent)).sortMethods := by
  refine (build_single_ok_iff _ _ _ _).mpr ⟨_, (build_ok_iff _ _ _ _ _ _ _).mpr ⟨?_, rfl⟩, rfl⟩
  intro signature declared
  obtain ⟨line, member, text⟩ := List.mem_map.mp declared
  exact (body_is_some_iff _ _ _ _).mpr ⟨line, (List.mem_filter.mp member).1, text⟩

theorem single_method_declared (startsMember : String → Bool) (namespacePrefix version : String)
    (className : Option String) (signatures lines : List String) (method : String)
    (member : method ∈
      (builtRecord startsMember namespacePrefix version className signatures lines).sortMethods.methods) :
    method ∈ signatures := by
  rwa [ClassRecord.sortMethods, List.mem_mergeSort, built_methods, List.mem_eraseDups] at member

-- The listing may track more methods than the modifiers declare, and only one of the styles ends a body
-- at the closing line; neither shows in a method that both have.
theorem styles_agree (namespacePrefix version other className : String) (listing : List String) (dump : ClassDump)
    (wellFormed : dump.WellFormed) (listed : dump.Listed (listedSignatures listing)) :
    ∃ full single, (buildListed namespacePrefix version className listing dump.lines).outcome = .ok full ∧
      (buildSingle namespacePrefix other dump.lines).outcome = .ok single ∧
      ∀ method ∈ single.methods, ∃ symbols, full.implementation? method = some symbols ∧
        single.implementation? method = some symbols := by
  refine ⟨_, _, (build_ok_iff _ _ _ _ _ _ _).mpr ⟨?_, rfl⟩, single_built namespacePrefix other dump.lines, ?_⟩
  · intro signature known
    exact (body_is_some_iff _ _ _ _).mpr (listed.found signature known)
  · intro method member
    have declared := single_method_declared _ _ _ _ _ _ method member
    have within : ∀ signature ∈ declaredSignatures (dump.lines.map stripIndent),
        signature ∈ listedSignatures listing := by
      intro signature declared
      obtain ⟨block, known, declares, rfl⟩ := declared_by_block dump wellFormed signature declared
      exact listed.declared block known declares
    have known := within method declared
    obtain ⟨block, inBlocks, _, text⟩ := declared_by_block dump wellFormed method declared
    obtain ⟨earlier, block, later, parts, text, first⟩ := first_block dump.blocks method ⟨block, inBlocks, text⟩
    obtain ⟨fullBody, fullFound, fullSymbols⟩ := body_in_style .listed namespacePrefix _ _ dump
      (listed_reads namespacePrefix _ dump wellFormed listed) listed method known listed.clearOfHead earlier later block
      parts text first
    obtain ⟨singleBody, singleFound, singleSymbols⟩ := body_in_style .single namespacePrefix _ _ dump
      (single_reads namespacePrefix _ _ dump wellFormed listed within) listed method known listed.clearOfStrippedHead
      earlier later block parts text first
    simp only [Style.listed, List.map_id] at fullFound
    refine ⟨block.inner.filterMap (symbolOf? namespacePrefix), ?_, ?_⟩
    · rw [built_implementation _ _ _ _ _ _ method known fullBody fullFound, fullSymbols]
    · exact (built_implementation _ _ _ _ _ _ method declared singleBody singleFound).trans
        (congrArg some singleSymbols)

def counterDump : ClassDump where
  head := ["Compiled from \"A.java\"", "public final class A \x7b"]
  blocks :=
    [⟨"  static \x7b\x7d;", ["    Code:", "       0: put #3   // Field n/X.all", ""]⟩,
      ⟨"  public final int n();", ["    Code:", "       0: get #7   // Field n/X.n", "       3: ireturn", ""]⟩,
      ⟨"  private void k();", ["    Code:", "       0: call #9  // Method n/Y.k", ""]⟩,
      ⟨"  protected abstract void r();", []⟩]
  closed := true

def counterListing : List String :=
  ["public final class A \x7b", "  public final int n();", "  private void k();", "  protected abstract void r();",
    "\x7d"]

theorem counter_well_formed : counterDump.WellFormed where
  head := by decide
  members := by decide
  inner := by decide

theorem counter_listed : counterDump.Listed (listedSignatures counterListing) where
  declared := by decide
  found := by decide
  clearOfHead := by decide
  clearOfStrippedHead := by decide
  clearOfInner := by decide

theorem styles_agree_counter :
    counterDump.WellFormed ∧ counterDump.Listed (listedSignatures counterListing) ∧
      ∃ full single, (buildListed "n/" "1" "A" counterListing counterDump.lines).outcome = .ok full ∧
        (buildSingle "n/" "1" counterDump.lines).outcome = .ok single ∧
        (∀ method ∈ single.methods, ∃ symbols, full.implementation? method = some symbols ∧
          single.implementation? method = some symbols) ∧
        full.methods.length = 3 ∧ full.implementation? "public final int n();" = some ["n/X.n"] ∧
        "public final int n();" ∈ single.methods ∧ "private void k();" ∉ single.methods := by
  obtain ⟨full, single, builtFull, builtSingle, agree⟩ :=
    styles_agree "n/" "1" "1" "A" counterListing counterDump counter_well_formed counter_listed
  have printedFull : (buildListed "n/" "1" "A" counterListing counterDump.lines).outcome =
      .ok (.ofMethods "1" (some "A") [("public final int n();", ["n/X.n"]), ("private void k();", ["n/Y.k"]),
        ("protected abstract void r();", [])]) := by decide
  obtain rfl := Except.ok.inj (builtFull.symm.trans printedFull)
  obtain rfl := Except.ok.inj (builtSingle.symm.trans (single_built "n/" "1" counterDump.lines))
  refine ⟨counter_well_formed, counter_listed, _, _, builtFull, builtSingle, agree, by decide, by decide, ?_, ?_⟩
  · rw [ClassRecord.sortMethods, List.mem_mergeSort]
    decide
  · rw [ClassRecord.sortMethods, List.mem_mergeSort]
    decide

end Disassembly

end BytecodeParity
