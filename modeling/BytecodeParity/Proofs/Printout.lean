import Mathlib.Data.List.Basic
import BytecodeParity.Proofs.RecordInvariant
import BytecodeParity.Proofs.ReferenceLine

set_option autoImplicit false

namespace BytecodeParity

inductive BodyLine where
  | reference (code : String) (kind : ReferenceKind) (target : String)
  | filler (text : String)

namespace BodyLine

def render : BodyLine → String
  | .reference code kind target => annotated ("   " ++ code) kind target
  | .filler text => "   " ++ text

def target? : BodyLine → Option String
  | .reference _ _ target => some target
  | .filler _ => none

def WellFormed (namespacePrefix : String) : BodyLine → Prop
  | .reference code _ target =>
      ¬ Mention.commentMarker <:+: code.toList ∧ Text.Bare target ∧ namespacePrefix.toList <:+: target.toList
  | .filler text => symbolOf? namespacePrefix ("   " ++ text) = none

theorem symbol_of_render (namespacePrefix : String) (given : namespacePrefix ≠ "") (line : BodyLine)
    (wellFormed : line.WellFormed namespacePrefix) : symbolOf? namespacePrefix line.render = line.target? := by
  cases line with
  | filler text => exact wellFormed
  | reference code kind target =>
      obtain ⟨unmarked, bare, mentions⟩ := wellFormed
      have indented : ¬ Mention.commentMarker <:+: ("   " ++ code).toList := by
        simpa [Mention.commentMarker, List.infix_cons_iff] using unmarked
      exact symbol_of_annotated namespacePrefix _ kind target given indented bare mentions

end BodyLine

structure PrintedMethod where
  signature : String
  body : List BodyLine

namespace PrintedMethod

def declaration (method : PrintedMethod) : String :=
  "  " ++ method.signature

def inner (method : PrintedMethod) : List String :=
  "    Code:" :: method.body.map BodyLine.render

def block (method : PrintedMethod) : List String :=
  method.declaration :: method.inner

def symbols (method : PrintedMethod) : List String :=
  method.body.filterMap BodyLine.target?

structure WellFormed (namespacePrefix : String) (method : PrintedMethod) : Prop where
  named : method.signature ≠ ""
  bare : Text.Bare method.signature
  readable : ∀ line ∈ method.body, line.WellFormed namespacePrefix

end PrintedMethod

structure Printout where
  listingHead : List String
  disassemblyHead : List String
  methods : List PrintedMethod

namespace Printout

def signatures (printout : Printout) : List String :=
  printout.methods.map (·.signature)

def listing (printout : Printout) : List String :=
  printout.listingHead ++ printout.methods.map (·.declaration) ++ ["\x7d"]

def disassembly (printout : Printout) : List String :=
  printout.disassemblyHead ++ printout.methods.flatMap (·.block) ++ ["\x7d"]

structure WellFormed (namespacePrefix : String) (printout : Printout) : Prop where
  distinct : printout.signatures.Nodup
  methods : ∀ method ∈ printout.methods, method.WellFormed namespacePrefix
  listingMargin : ∀ line ∈ printout.listingHead, line.toList.head? ≠ some ' '
  disassemblyMargin : ∀ line ∈ printout.disassemblyHead, line.toList.head? ≠ some ' '
  unambiguous : ∀ method ∈ printout.methods, ∀ line ∈ printout.disassembly,
    Text.trim line = method.signature → line = method.declaration

end Printout

namespace Disassembly

theorem is_member_line_declaration (signature : String) (named : signature ≠ "") (bare : Text.Bare signature) :
    isMemberLine ("  " ++ signature) := by
  have chars : ("  " ++ signature).toList = ' ' :: ' ' :: signature.toList := by simp
  rw [isMemberLine, chars]
  simp only [String.ofList_toList, Text.startsInked]
  cases split : signature.toList with
  | nil => exact absurd (String.toList_eq_nil_iff.mp split) named
  | cons c rest =>
      have inked := bare.1 c (by simp [split])
      simp [inked]

theorem is_member_line_deep (text : String) : isMemberLine ("   " ++ text) = false := by
  have chars : ("   " ++ text).toList = ' ' :: ' ' :: ' ' :: text.toList := by simp
  rw [isMemberLine, chars]
  simp [Text.startsInked, Text.isBlank]

theorem is_member_line_margin (line : String) (margin : line.toList.head? ≠ some ' ') :
    isMemberLine line = false := by
  rw [isMemberLine]
  split
  · next rest chars => simp [chars] at margin
  · rfl

theorem trim_declaration (signature : String) (bare : Text.Bare signature) :
    Text.trim ("  " ++ signature) = signature := by
  have blank : "  ".toList.all Text.isBlank := by decide
  exact Text.trim_indented "  " signature (List.all_eq_true.mp blank) bare

theorem is_member_line_render (line : BodyLine) : isMemberLine line.render = false := by
  cases line with
  | filler text => exact is_member_line_deep text
  | reference code kind target =>
      simp only [BodyLine.render, annotated, String.append_assoc]
      exact is_member_line_deep _

theorem is_member_line_inner (method : PrintedMethod) (line : String) (member : line ∈ method.inner) :
    isMemberLine line = false := by
  rcases List.mem_cons.mp member with rfl | rendered
  · decide
  · obtain ⟨bodyLine, _, rfl⟩ := List.mem_map.mp rendered
    exact is_member_line_render bodyLine

theorem body_behind (startsMember : String → Bool) (tracked before rest : List String) (signature : String)
    (others : ∀ line ∈ before, Text.trim line ≠ signature) :
    body? startsMember tracked (before ++ rest) signature = body? startsMember tracked rest signature := by
  rw [body?, List.dropWhile_append_of_pos (fun line member => decide_eq_true (others line member)), body?]

theorem body_of_declaration (startsMember : String → Bool) (tracked before rest : List String)
    (declaration : String) (earlier : ∀ line ∈ before, Text.trim line ≠ Text.trim declaration) :
    body? startsMember tracked (before ++ declaration :: rest) (Text.trim declaration) =
      some (rest.takeWhile fun line => !isBoundary startsMember tracked line) := by
  rw [body_behind startsMember tracked before _ _ earlier]
  simp [body?]

theorem listed_signatures_of_listing (namespacePrefix : String) (printout : Printout)
    (wellFormed : printout.WellFormed namespacePrefix) :
    listedSignatures printout.listing = printout.signatures := by
  have head : printout.listingHead.filter isMemberLine = [] := by
    rw [List.filter_eq_nil_iff]
    intro line member
    simp [is_member_line_margin line (wellFormed.listingMargin line member)]
  have declarations : (printout.methods.map (·.declaration)).filter isMemberLine =
      printout.methods.map (·.declaration) := by
    rw [List.filter_eq_self]
    intro line member
    obtain ⟨method, known, rfl⟩ := List.mem_map.mp member
    have good := wellFormed.methods method known
    exact is_member_line_declaration method.signature good.named good.bare
  have closing : ["\x7d"].filter isMemberLine = [] := by decide
  rw [listedSignatures, Printout.listing, List.filter_append, List.filter_append, head, declarations, closing,
    List.nil_append, List.append_nil, List.map_map, Printout.signatures]
  apply List.map_congr_left
  intro method known
  exact trim_declaration method.signature (wellFormed.methods method known).bare

theorem not_boundary_of_disassembly (namespacePrefix : String) (printout : Printout)
    (wellFormed : printout.WellFormed namespacePrefix) (line : String) (printed : line ∈ printout.disassembly)
    (inner : isMemberLine line = false) : isBoundary isMemberLine printout.signatures line = false := by
  rw [isBoundary, inner, Bool.false_or, ← Bool.not_eq_true, List.contains_iff_mem]
  intro tracked
  obtain ⟨method, known, same⟩ := List.mem_map.mp tracked
  have good := wellFormed.methods method known
  rw [wellFormed.unambiguous method known line printed same.symm] at inner
  rw [PrintedMethod.declaration, is_member_line_declaration method.signature good.named good.bare] at inner
  cases inner

-- No line before a declaration is taken for it: the head stands at column zero, the declarations of
-- the earlier methods are others, and the lines of their bodies declare nothing.
theorem declaration_not_earlier (namespacePrefix : String) (printout : Printout)
    (wellFormed : printout.WellFormed namespacePrefix) (method : PrintedMethod) (earlier : List PrintedMethod)
    (good : method.WellFormed namespacePrefix) (fresh : method.signature ∉ earlier.map (·.signature)) :
    method.declaration ∉ printout.disassemblyHead ++ earlier.flatMap (·.block) := by
  have declares := is_member_line_declaration method.signature good.named good.bare
  intro member
  rcases List.mem_append.mp member with head | block
  · have column := is_member_line_margin _ (wellFormed.disassemblyMargin _ head)
    rw [PrintedMethod.declaration, declares] at column
    cases column
  · obtain ⟨other, known, inBlock⟩ := List.mem_flatMap.mp block
    rcases List.mem_cons.mp inBlock with same | inner
    · have equal : method.signature = other.signature := by
        simpa [PrintedMethod.declaration] using same
      exact fresh (equal ▸ List.mem_map_of_mem known)
    · have declaresNothing := is_member_line_inner other _ inner
      rw [PrintedMethod.declaration, declares] at declaresNothing
      cases declaresNothing

theorem symbols_of_inner (namespacePrefix : String) (given : namespacePrefix ≠ "") (method : PrintedMethod)
    (good : method.WellFormed namespacePrefix) :
    method.inner.filterMap (symbolOf? namespacePrefix) = method.symbols := by
  have code : symbolOf? namespacePrefix "    Code:" = none :=
    symbol_of_unmarked namespacePrefix "    Code:" (by simp [Mention.commentMarker, List.infix_cons_iff])
  rw [PrintedMethod.inner, List.filterMap_cons_none code, List.filterMap_map, PrintedMethod.symbols]
  apply List.filterMap_congr
  intro line member
  exact BodyLine.symbol_of_render namespacePrefix given line (good.readable line member)

-- What follows a block either opens the next body at once or is the closing line, which has no symbol.
theorem symbols_after_block (namespacePrefix : String) (tracked : List String) (later : List PrintedMethod)
    (good : ∀ method ∈ later, method.WellFormed namespacePrefix) :
    ((later.flatMap (·.block) ++ ["\x7d"]).takeWhile fun line => !isBoundary isMemberLine tracked line).filterMap
      (symbolOf? namespacePrefix) = [] := by
  cases later with
  | nil =>
      have closing : symbolOf? namespacePrefix "\x7d" = none :=
        symbol_of_unmarked namespacePrefix "\x7d" (by simp [Mention.commentMarker, List.infix_cons_iff])
      rw [List.flatMap_nil, List.nil_append, List.takeWhile_cons]
      split
      · rw [List.filterMap_cons_none closing, List.takeWhile_nil, List.filterMap_nil]
      · rfl
  | cons next rest =>
      have goodNext := good next List.mem_cons_self
      have declares := is_member_line_declaration next.signature goodNext.named goodNext.bare
      have opens : isBoundary isMemberLine tracked next.declaration := by
        rw [isBoundary, PrintedMethod.declaration, declares, Bool.true_or]
      simp [PrintedMethod.block, opens]

theorem body_of_printed (namespacePrefix : String) (given : namespacePrefix ≠ "") (printout : Printout)
    (wellFormed : printout.WellFormed namespacePrefix) (method : PrintedMethod) (known : method ∈ printout.methods) :
    ∃ body, body? isMemberLine printout.signatures printout.disassembly method.signature = some body ∧
      body.filterMap (symbolOf? namespacePrefix) = method.symbols := by
  obtain ⟨earlier, later, split⟩ := List.append_of_mem known
  have good := wellFormed.methods method known
  have distinct := wellFormed.distinct
  simp only [Printout.signatures, split, List.map_append, List.map_cons] at distinct
  have fresh : method.signature ∉ earlier.map (·.signature) := fun member =>
    (List.nodup_append.mp distinct).2.2 _ member _ List.mem_cons_self rfl
  have printed : printout.disassembly = printout.disassemblyHead ++ earlier.flatMap (·.block) ++
      method.declaration :: (method.inner ++ (later.flatMap (·.block) ++ ["\x7d"])) := by
    simp [Printout.disassembly, split, PrintedMethod.block]
  have trimmed : Text.trim method.declaration = method.signature := trim_declaration _ good.bare
  have before : ∀ line ∈ printout.disassemblyHead ++ earlier.flatMap (·.block),
      Text.trim line ≠ Text.trim method.declaration := by
    intro line member same
    have inPrintout : line ∈ printout.disassembly := by
      rw [printed]
      exact List.mem_append_left _ member
    rw [wellFormed.unambiguous method known line inPrintout (same.trans trimmed)] at member
    exact declaration_not_earlier namespacePrefix printout wellFormed method earlier good fresh member
  have inner : ∀ line ∈ method.inner, (!isBoundary isMemberLine printout.signatures line) = true := by
    intro line member
    have inPrintout : line ∈ printout.disassembly := by
      rw [printed]
      exact List.mem_append_right _ (List.mem_cons_of_mem _ (List.mem_append_left _ member))
    rw [not_boundary_of_disassembly namespacePrefix printout wellFormed line inPrintout
      (is_member_line_inner method line member)]
    rfl
  have goodLater : ∀ other ∈ later, other.WellFormed namespacePrefix := fun other member =>
    wellFormed.methods other (by simp [split, member])
  have found := body_of_declaration isMemberLine printout.signatures _
    (method.inner ++ (later.flatMap (·.block) ++ ["\x7d"])) method.declaration before
  rw [← printed, trimmed, List.takeWhile_append_of_pos inner] at found
  refine ⟨_, found, ?_⟩
  rw [List.filterMap_append, symbols_of_inner namespacePrefix given method good,
    symbols_after_block namespacePrefix _ later goodLater, List.append_nil]

end Disassembly

namespace Printout

def rows (printout : Printout) : List SymbolTable.Row :=
  printout.methods.map fun method => (method.signature, method.symbols)

theorem rows_names (printout : Printout) : printout.rows.map (·.1) = printout.signatures := by
  rw [rows, List.map_map]
  rfl

theorem build_listed (namespacePrefix version className : String) (given : namespacePrefix ≠ "")
    (printout : Printout) (wellFormed : printout.WellFormed namespacePrefix) :
    (Disassembly.buildListed namespacePrefix version className printout.listing printout.disassembly).outcome =
      .ok (.ofMethods version (some className) printout.rows) := by
  have listed := Disassembly.listed_signatures_of_listing namespacePrefix printout wellFormed
  have bodies := Disassembly.body_of_printed namespacePrefix given printout wellFormed
  rw [Disassembly.buildListed, listed, Disassembly.build_ok_iff]
  constructor
  · intro signature member
    obtain ⟨method, known, rfl⟩ := List.mem_map.mp member
    obtain ⟨body, found, _⟩ := bodies method known
    simp [found]
  · rw [Disassembly.builtRecord, ← rows_names, List.map_map]
    congr 1
    rw [rows, List.map_map]
    apply List.map_congr_left
    intro method known
    obtain ⟨body, found, symbols⟩ := bodies method known
    rw [← rows_names, rows] at found
    simp only [Function.comp_apply, found, Option.getD_some, symbols]

end Printout

-- A signature that is also the text of another line would be found there first, so no signature is.
theorem building_undoes_printing (namespacePrefix version className : String) (given : namespacePrefix ≠ "")
    (printout : Printout) (wellFormed : printout.WellFormed namespacePrefix) :
    ∃ record, (Disassembly.buildListed namespacePrefix version className printout.listing
        printout.disassembly).outcome = .ok record ∧
      record.version = version ∧ record.className = some className ∧ record.methods = printout.signatures ∧
      (∀ method ∈ printout.methods, record.implementation? method.signature = some method.symbols) ∧
      ∀ signature, record.declares signature ↔ signature ∈ printout.signatures := by
  have names := printout.rows_names
  refine ⟨_, printout.build_listed namespacePrefix version className given wellFormed,
    ClassRecord.of_methods_version _ _ _, ClassRecord.of_methods_class _ _ _, ?_, ?_, ?_⟩
  · rw [ClassRecord.of_methods_methods, names, erase_dups_of_nodup _ wellFormed.distinct]
  · intro method known
    exact ClassRecord.of_methods_implementation version (some className) printout.rows (names ▸ wellFormed.distinct)
      (method.signature, method.symbols) (List.mem_map_of_mem known)
  · intro signature
    rw [ClassRecord.declares, ClassRecord.of_methods_contains, names, List.contains_iff_mem]

def accessors : Printout where
  listingHead := ["class A \x7b"]
  disassemblyHead := ["Compiled from A", "class A \x7b"]
  methods :=
    [⟨"int f();", [.filler " 0: aload_0", .reference " 1: getfield" .field "n/X.f", .reference "" .method "n/Y"]⟩,
      ⟨"void g();", [.reference " 0: new" .classType "n/Z", .filler " 3: call // Method java/A"]⟩]

theorem accessors_well_formed : accessors.WellFormed "n/" where
  distinct := by decide
  methods method member := by
    have noAnnotation : symbolOf? "n/" "    0: aload_0" = none := by decide
    have otherNamespace : symbolOf? "n/" "    3: call // Method java/A" = none := by decide
    simp only [accessors, List.mem_cons, List.not_mem_nil, or_false] at member
    rcases member with rfl | rfl
    · refine ⟨by decide, by simp [Text.Bare, Text.isBlank], ?_⟩
      simp [BodyLine.WellFormed, Mention.commentMarker, List.infix_cons_iff, Text.Bare, Text.isBlank, noAnnotation]
    · refine ⟨by decide, by simp [Text.Bare, Text.isBlank], ?_⟩
      simp [BodyLine.WellFormed, Mention.commentMarker, List.infix_cons_iff, Text.Bare, Text.isBlank, otherNamespace]
  listingMargin := by decide
  disassemblyMargin := by decide
  unambiguous := by decide

theorem building_undoes_printing_accessors :
    accessors.WellFormed "n/" ∧ ∃ record, (Disassembly.buildListed "n/" "1" "A" accessors.listing
        accessors.disassembly).outcome = .ok record ∧
      record.methods = ["int f();", "void g();"] ∧
      record.implementation? "int f();" = some ["n/X.f", "n/Y"] ∧
      record.implementation? "void g();" = some ["n/Z"] := by
  obtain ⟨record, built, _, _, methods, symbols, _⟩ :=
    building_undoes_printing "n/" "1" "A" (by decide) accessors accessors_well_formed
  refine ⟨accessors_well_formed, record, built, methods, ?_, ?_⟩
  · exact symbols _ List.mem_cons_self
  · exact symbols _ (List.mem_cons_of_mem _ List.mem_cons_self)

end BytecodeParity
