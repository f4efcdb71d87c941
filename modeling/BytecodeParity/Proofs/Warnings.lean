import BytecodeParity.Proofs.BodyExtents
import BytecodeParity.Proofs.LineGrammar
import BytecodeParity.Proofs.MissingBodies

set_option autoImplicit false

namespace BytecodeParity

structure StartsComment (line before indent word behind : String) : Prop where
  whole : line = before ++ "//" ++ indent ++ word ++ behind
  firstMarker : ∀ front back, line = front ++ "//" ++ back → before.length ≤ front.length
  indentBlank : ∀ c ∈ indent.toList, Text.isBlank c
  given : word ≠ ""
  inked : ∀ c ∈ word.toList, !Text.isBlank c
  apart : ∀ c ∈ behind.toList.head?, Text.isBlank c

def CommentWord (line word behind : String) : Prop :=
  ∃ before indent, StartsComment line before indent word behind

def Annotates (line : String) (kind : ReferenceKind) (target : String) : Prop :=
  ∃ behind, CommentWord line kind.keyword behind ∧ Text.trim behind = target

namespace Mention

section Comments

variable {line word rest : String} {comment : List Char}

theorem cut_keyword_word (behind : String) (inked : ∀ c ∈ word.toList, !Text.isBlank c)
    (apart : ∀ c ∈ behind.toList.head?, Text.isBlank c) :
    cutKeyword (word.toList ++ behind.toList) = (word, String.ofList (behind.toList.drop 1)) := by
  cases chars : behind.toList with
  | nil =>
      have none : word.toList.dropWhile (fun c => !Text.isBlank c) = [] := List.dropWhile_eq_nil_iff.mpr inked
      have all : word.toList.takeWhile (fun c => !Text.isBlank c) = word.toList := List.takeWhile_eq_self_iff.mpr inked
      rw [List.append_nil, cutKeyword, none, all, String.ofList_toList]
  | cons blank more =>
      have isBlank := apart blank (by rw [chars]; rfl)
      rw [cut_keyword_blank _ _ blank inked isBlank, String.ofList_toList]
      rfl

theorem trim_behind (behind : String) (apart : ∀ c ∈ behind.toList.head?, Text.isBlank c) :
    Text.trim (String.ofList (behind.toList.drop 1)) = Text.trim behind := by
  cases chars : behind.toList with
  | nil => rw [Text.trim, Text.trim, chars, List.drop_nil, String.toList_ofList]
  | cons blank more =>
      have isBlank := apart blank (by rw [chars]; rfl)
      have dropped : Text.dropBlanks (blank :: more) = Text.dropBlanks more := by simp [Text.dropBlanks, isBlank]
      rw [Text.trim, Text.trim, Text.trimChars, Text.trimChars, chars, dropped, String.toList_ofList, List.drop_one,
        List.tail_cons]

theorem comment_of_word (behind : String) (worded : CommentWord line word behind) :
    ∃ comment, comment? line = some comment ∧
      cutKeyword (Text.dropBlanks comment) = (word, String.ofList (behind.toList.drop 1)) ∧
      ∀ c ∈ behind.toList.head?, Text.isBlank c := by
  obtain ⟨before, indent, pieces⟩ := worded
  have whole : line = before ++ "//" ++ (indent ++ word ++ behind) := by
    simp only [pieces.whole, String.append_assoc]
  refine ⟨_, (comment_iff line _).mpr ⟨before, (first_marker_iff line before _).mpr ⟨whole, pieces.firstMarker⟩⟩, ?_,
    pieces.apart⟩
  rw [String.toList_append, String.toList_append, List.append_assoc, Text.drop_blanks_indented _ _ pieces.indentBlank,
    drop_blanks_word _ pieces.given pieces.inked, cut_keyword_word _ pieces.inked pieces.apart]

theorem word_of_comment (marked : comment? line = some comment)
    (cut : cutKeyword (Text.dropBlanks comment) = (word, rest)) (given : word ≠ "") :
    ∃ behind, CommentWord line word behind ∧ Text.trim behind = Text.trim rest := by
  obtain ⟨rfl, rfl⟩ := Prod.mk.inj cut
  obtain ⟨before, first⟩ := (comment_iff line comment).mp marked
  obtain ⟨indent, indentBlank, chars⟩ := Text.exists_indent comment
  have parts := List.takeWhile_append_dropWhile (p := fun c => !Text.isBlank c) (l := Text.dropBlanks comment)
  have stopped := List.head?_dropWhile_not (fun c => !Text.isBlank c) (Text.dropBlanks comment)
  generalize Text.dropBlanks comment = inked at chars parts stopped given
  let behind := String.ofList (inked.dropWhile fun c => !Text.isBlank c)
  have apart : ∀ c ∈ behind.toList.head?, Text.isBlank c := by
    intro c isFirst
    rw [String.toList_ofList] at isFirst
    rw [Option.mem_def.mp isFirst] at stopped
    simpa using stopped
  have spelled : comment =
      (indent ++ String.ofList (inked.takeWhile fun c => !Text.isBlank c) ++ behind).toList := by
    rw [String.toList_append, String.toList_append, String.toList_ofList, String.toList_ofList, List.append_assoc,
      parts]
    exact chars
  rw [spelled] at first
  obtain ⟨whole, firstMarker⟩ := (first_marker_iff line before _).mp first
  refine ⟨behind, ⟨before, indent, ?_, firstMarker, indentBlank, given, ?_, apart⟩, ?_⟩
  · rw [whole]
    simp only [String.append_assoc]
  · rw [String.toList_ofList]
    exact fun c => List.mem_takeWhile_imp
  · rw [← trim_behind behind apart, String.toList_ofList]

theorem annotates_iff (line : String) (kind : ReferenceKind) (target : String) :
    Annotates line kind target ↔
      ∃ comment rest, comment? line = some comment ∧ cutKeyword (Text.dropBlanks comment) = (kind.keyword, rest) ∧
        Text.trim rest = target := by
  constructor
  · rintro ⟨behind, worded, rfl⟩
    obtain ⟨comment, marked, cut, apart⟩ := comment_of_word behind worded
    exact ⟨comment, _, marked, cut, trim_behind behind apart⟩
  · rintro ⟨comment, rest, marked, cut, rfl⟩
    exact word_of_comment marked cut kind.keyword_given

theorem word_unique {other : String} (behind : String) (marked : comment? line = some comment)
    (cut : cutKeyword (Text.dropBlanks comment) = (word, rest)) (worded : CommentWord line other behind) :
    other = word := by
  obtain ⟨_, found, cutToo, _⟩ := comment_of_word behind worded
  obtain rfl := Option.some.inj (marked.symm.trans found)
  exact (Prod.mk.inj (cutToo.symm.trans cut)).1

theorem unmarked_wordless (unmarked : comment? line = none) (behind : String) : ¬ CommentWord line word behind := by
  intro worded
  obtain ⟨comment, found, _⟩ := comment_of_word behind worded
  rw [unmarked] at found
  cases found

theorem first_word_iff (marked : comment? line = some comment)
    (cut : cutKeyword (Text.dropBlanks comment) = (word, rest)) (other : String) :
    (if word = "" then none else some word) = some other ↔ ∃ behind, CommentWord line other behind := by
  constructor
  · intro same
    split at same
    · cases same
    · next given =>
        cases same
        obtain ⟨behind, worded, _⟩ := word_of_comment marked cut given
        exact ⟨behind, worded⟩
  · rintro ⟨behind, worded⟩
    obtain rfl := word_unique behind marked cut worded
    obtain ⟨_, _, pieces⟩ := worded
    rw [if_neg pieces.given]

theorem unknown_annotates_nothing (marked : comment? line = some comment)
    (cut : cutKeyword (Text.dropBlanks comment) = (word, rest)) (unknown : ReferenceKind.ofKeyword? word = none)
    (kind : ReferenceKind) (target : String) : ¬ Annotates line kind target := by
  rintro ⟨behind, worded, _⟩
  obtain rfl := word_unique behind marked cut worded
  rw [ReferenceKind.of_keyword] at unknown
  cases unknown

theorem of_line_related (namespacePrefix line : String) (given : namespacePrefix ≠ "")
    (related : Text.contains line namespacePrefix) :
    ofLine namespacePrefix line = ((comment? line).map (ofComment namespacePrefix)).getD (.unprocessed none) := by
  rw [ofLine, if_neg (by simp [given, related]), comment?]
  cases Text.cutAt commentMarker line.toList <;> rfl

end Comments

end Mention

inductive Handled (namespacePrefix line : String) : Prop
  | contributes (kind : ReferenceKind) (target : String) (annotates : Annotates line kind target)
      (inside : namespacePrefix.toList <:+: target.toList) (symbol : symbolOf? namespacePrefix line = some target)
      (silent : unprocessedOf? namespacePrefix line = none)
  | warns (keyword : Option String) (unknown : ∀ kind target, ¬ Annotates line kind target)
      (named : ∀ word, keyword = some word ↔ ∃ behind, CommentWord line word behind)
      (noSymbol : symbolOf? namespacePrefix line = none)
      (warning : unprocessedOf? namespacePrefix line = some ⟨keyword, Text.trim line⟩)
  | passes (kind : ReferenceKind) (target : String) (annotates : Annotates line kind target)
      (outside : ¬ namespacePrefix.toList <:+: target.toList) (noSymbol : symbolOf? namespacePrefix line = none)
      (silent : unprocessedOf? namespacePrefix line = none)

section Lines

variable {namespacePrefix line : String}

theorem warns_of_unprocessed (keyword : Option String) (unknown : ∀ kind target, ¬ Annotates line kind target)
    (named : ∀ word, keyword = some word ↔ ∃ behind, CommentWord line word behind)
    (read : Mention.ofLine namespacePrefix line = .unprocessed keyword) : Handled namespacePrefix line := by
  refine .warns keyword unknown named ?_ ?_
  · rw [symbolOf?, read]
    rfl
  · rw [unprocessedOf?, read]

theorem handled_of_annotation (kind : ReferenceKind) (target : String) (annotates : Annotates line kind target)
    (read : Mention.ofLine namespacePrefix line =
      if Text.contains target namespacePrefix then .symbol kind target else .stable kind) :
    Handled namespacePrefix line := by
  by_cases inside : Text.contains target namespacePrefix
  · rw [if_pos inside] at read
    refine .contributes kind target annotates ((Text.contains_iff _ _).mp inside) ?_ ?_
    · rw [symbolOf?, read]
      rfl
    · rw [unprocessedOf?, read]
  · rw [if_neg inside] at read
    refine .passes kind target annotates (mt (Text.contains_iff _ _).mpr inside) ?_ ?_
    · rw [symbolOf?, read]
      rfl
    · rw [unprocessedOf?, read]

theorem handled_of_related (given : namespacePrefix ≠ "") (related : namespacePrefix.toList <:+: line.toList) :
    Handled namespacePrefix line := by
  have read := Mention.of_line_related namespacePrefix line given ((Text.contains_iff _ _).mpr related)
  cases marked : Mention.comment? line with
  | none =>
      rw [marked] at read
      have wordless : ∀ word behind, ¬ CommentWord line word behind :=
        fun _ behind => Mention.unmarked_wordless marked behind
      refine warns_of_unprocessed none ?_ ?_ read
      · rintro kind target ⟨behind, worded, _⟩
        exact wordless _ behind worded
      · simp [wordless]
  | some comment =>
      rw [marked, Option.map_some, Option.getD_some] at read
      cases cut : Mention.cutKeyword (Text.dropBlanks comment) with
      | mk word rest =>
          simp only [Mention.ofComment, cut] at read
          cases known : ReferenceKind.ofKeyword? word with
          | none =>
              rw [known] at read
              exact warns_of_unprocessed _ (Mention.unknown_annotates_nothing marked cut known)
                (Mention.first_word_iff marked cut) read
          | some kind =>
              obtain rfl := (ReferenceKind.of_keyword_iff word kind).mp known
              rw [known] at read
              exact handled_of_annotation kind _
                ((Mention.annotates_iff line kind _).mpr ⟨comment, rest, marked, cut, rfl⟩) read

end Lines

namespace Disassembly

-- The bodies that a build reads, with their extents and in the order in which it reads them: those of the
-- tracked signatures, up to the first one that no line shows.
structure ReadBodies (startsMember : String → Bool) (tracked lines : List String)
    (outcome : Except MissingBody ClassRecord) (bodies : List (String × Extent)) : Prop where
  extents : ∀ body ∈ bodies, IsBody startsMember tracked lines body.1 body.2
  complete : ∀ record, outcome = .ok record → bodies.map (·.1) = tracked
  stopped : ∀ missing, outcome = .error missing → ¬ Shows lines missing.signature ∧
    ∃ unread, tracked = bodies.map (·.1) ++ missing.signature :: unread

structure Accounts (startsMember : String → Bool) (namespacePrefix : String) (tracked lines : List String)
    (built : Build) (bodies : List (String × Extent)) : Prop where
  read : ReadBodies startsMember tracked lines built.outcome bodies
  warnings : built.unprocessed = bodies.flatMap fun body =>
    (body.2.of lines).filterMap (unprocessedOf? namespacePrefix)
  nowhereElse : ∀ warning ∈ built.unprocessed, ∃ body ∈ bodies, ∃ index line,
    body.2.Holds index ∧ lines[index]? = some line ∧ unprocessedOf? namespacePrefix line = some warning
  symbols : ∀ record, built.outcome = .ok record → ∀ body ∈ bodies,
    record.implementation? body.1 = some ((body.2.of lines).filterMap (symbolOf? namespacePrefix))
  handled : namespacePrefix ≠ "" → ∀ body ∈ bodies, ∀ line ∈ body.2.of lines,
    namespacePrefix.toList <:+: line.toList → Handled namespacePrefix line

theorem Extent.exists_index_of_mem {extent : Extent} {lines : List String} {line : String}
    (member : line ∈ extent.of lines) : ∃ index, extent.Holds index ∧ lines[index]? = some line := by
  obtain ⟨offset, stands⟩ := List.mem_iff_getElem?.mp member
  rw [Extent.of, List.getElem?_take, List.getElem?_drop] at stands
  split at stands
  · next within => exact ⟨extent.start + offset, ⟨Nat.le_add_right _ _, by omega⟩, stands⟩
  · cases stands

section Building

variable {startsMember : String → Bool} {namespacePrefix version : String} {className : Option String}
  {tracked lines : List String}

def readExtents (startsMember : String → Bool) (tracked lines : List String) : List (String × Extent) :=
  (tracked.takeWhile fun signature => (body? startsMember tracked lines signature).isSome).map fun signature =>
    (signature, bodyExtent startsMember tracked lines signature)

theorem read_extents_body (body : String × Extent) (member : body ∈ readExtents startsMember tracked lines) :
    body.1 ∈ tracked ∧ ∃ found, body? startsMember tracked lines body.1 = some found ∧
      IsBody startsMember tracked lines body.1 body.2 ∧ body.2.of lines = found := by
  obtain ⟨signature, known, rfl⟩ := List.mem_map.mp member
  have shown : (body? startsMember tracked lines signature).isSome := List.mem_takeWhile_imp
    (p := fun signature => (body? startsMember tracked lines signature).isSome) known
  obtain ⟨found, present⟩ := Option.isSome_iff_exists.mp shown
  obtain ⟨isBody, same⟩ := body_extent found present
  exact ⟨(List.takeWhile_prefix _).subset known, found, present, isBody, same⟩

theorem read_extents_signatures : (readExtents startsMember tracked lines).map (·.1) =
    tracked.takeWhile fun signature => (body? startsMember tracked lines signature).isSome := by
  rw [readExtents, List.map_map]
  exact List.map_id _

theorem taken_before {taken : String → Bool} {earlier unread : List String} {signature : String}
    (whole : tracked = earlier ++ signature :: unread) (before : ∀ other ∈ earlier, taken other)
    (stops : taken signature = false) : tracked.takeWhile taken = earlier := by
  rw [whole, List.takeWhile_append_of_pos before, List.takeWhile_cons_of_neg (by simp [stops]), List.append_nil]

theorem build_reads : ReadBodies startsMember tracked lines
    (build startsMember namespacePrefix version className tracked lines).outcome
    (readExtents startsMember tracked lines) where
  extents body member := by
    obtain ⟨_, _, _, isBody, _⟩ := read_extents_body body member
    exact isBody
  complete record built := by
    rw [read_extents_signatures]
    exact List.takeWhile_eq_self_iff.mpr ((build_ok_iff _ _ _ _ _ _ _).mp built).1
  stopped missing refused := by
    rw [read_extents_signatures]
    cases found : tracked.find? fun signature => (body? startsMember tracked lines signature).isNone with
    | none =>
        simp only [build, found] at refused
        cases refused
    | some signature =>
        simp only [build, found, Except.error.injEq] at refused
        obtain rfl := refused
        obtain ⟨absent, earlier, unread, whole, passed⟩ := List.find?_eq_some_iff_append.mp found
        have present : ∀ other ∈ earlier, (body? startsMember tracked lines other).isSome := by
          intro other member
          simpa using passed other member
        refine ⟨(body_none_iff startsMember tracked lines signature).mp absent, unread, ?_⟩
        rwa [taken_before whole present (by simpa using absent)]

theorem build_warnings : (build startsMember namespacePrefix version className tracked lines).unprocessed =
    (readExtents startsMember tracked lines).flatMap fun body =>
      (body.2.of lines).filterMap (unprocessedOf? namespacePrefix) := by
  rw [readExtents, List.flatMap_map, build]
  refine List.flatMap_congr fun signature known => ?_
  obtain ⟨_, found, present, _, same⟩ := read_extents_body _ (List.mem_map_of_mem known)
  rw [same, present, Option.getD_some]

theorem build_accounts : Accounts startsMember namespacePrefix tracked lines
    (build startsMember namespacePrefix version className tracked lines) (readExtents startsMember tracked lines) where
  read := build_reads
  warnings := build_warnings
  nowhereElse warning warned := by
    rw [build_warnings] at warned
    obtain ⟨body, isRead, inBody⟩ := List.mem_flatMap.mp warned
    obtain ⟨line, member, warns⟩ := List.mem_filterMap.mp inBody
    obtain ⟨index, holds, stands⟩ := Extent.exists_index_of_mem member
    exact ⟨body, isRead, index, line, holds, stands, warns⟩
  symbols record built body member := by
    obtain ⟨known, found, present, _, same⟩ := read_extents_body body member
    rw [((build_ok_iff _ _ _ _ _ _ _).mp built).2, same]
    exact built_implementation _ _ _ _ _ _ body.1 known found present
  handled given _ _ _ _ related := handled_of_related given related

end Building

theorem single_accounts (namespacePrefix version : String) (disassembly : List String) :
    let lines := disassembly.map stripIndent
    Accounts Text.startsInked namespacePrefix (declaredSignatures lines) lines
      (buildSingle namespacePrefix version disassembly)
      (readExtents Text.startsInked (declaredSignatures lines) lines) := by
  intro lines
  have accounts : Accounts Text.startsInked namespacePrefix (declaredSignatures lines) lines
      (build Text.startsInked namespacePrefix version none (declaredSignatures lines) lines) _ := build_accounts
  have collected := fun record => (build_single_ok_iff namespacePrefix version disassembly record).mp
  refine ⟨⟨accounts.read.extents, fun record built => ?_, fun missing refused => ?_⟩, accounts.warnings,
    accounts.nowhereElse, fun record built => ?_, accounts.handled⟩
  · obtain ⟨_, collects, _⟩ := collected record built
    exact accounts.read.complete _ collects
  · rw [single_built] at refused
    cases refused
  · obtain ⟨found, collects, rfl⟩ := collected record built
    exact accounts.symbols found collects

-- A repeated signature has its body read again, and a line that stands in no body of the list is not warned about.
theorem no_mention_dropped :
    (∀ (namespacePrefix version className : String) (listing disassembly : List String),
      ∃ bodies, Accounts isMemberLine namespacePrefix (listedSignatures listing) disassembly
        (buildListed namespacePrefix version className listing disassembly) bodies) ∧
    ∀ (namespacePrefix version : String) (disassembly : List String),
      let lines := disassembly.map stripIndent
      ∃ bodies, Accounts Text.startsInked namespacePrefix (declaredSignatures lines) lines
        (buildSingle namespacePrefix version disassembly) bodies :=
  ⟨fun _ _ _ _ _ => ⟨_, build_accounts⟩, fun namespacePrefix version disassembly =>
    ⟨_, single_accounts namespacePrefix version disassembly⟩⟩

def guardedListing : List String :=
  ["class A \x7b", "  int a();", "  void b();", "  int a();", "  void c();", "  void d();", "\x7d"]

def guardedPrinted : List String :=
  ["  static \x7b\x7d;", "   0: ldc // String n/aside", "  int a();", "   0: ldc // String n/hidden",
    "   1: get // Field n/X.f", "   2: call n/code // Method j/L.m", "  void b();", "   0: n/bare", "  void d();",
    "   0: // n/unread"]

def declaredAgain : List String :=
  ["  static \x7b\x7d;", "   0: ldc // String n/aside", "  public final int a();", "   0: ldc // String n/hidden",
    "  public final int a();", "   0: ldc // String n/again"]

theorem no_mention_dropped_guarded :
    (∃ bodies, Accounts isMemberLine "n/" (listedSignatures guardedListing) guardedPrinted
        (buildListed "n/" "1" "A" guardedListing guardedPrinted) bodies ∧
      (buildListed "n/" "1" "A" guardedListing guardedPrinted).outcome = .error ⟨"1", some "A", "void c();"⟩ ∧
      (buildListed "n/" "1" "A" guardedListing guardedPrinted).unprocessed =
        [⟨some "String", "0: ldc // String n/hidden"⟩, ⟨none, "0: n/bare"⟩,
          ⟨some "String", "0: ldc // String n/hidden"⟩]) ∧
    ∃ bodies, Accounts Text.startsInked "n/" (declaredSignatures (declaredAgain.map stripIndent))
        (declaredAgain.map stripIndent) (buildSingle "n/" "1" declaredAgain) bodies ∧
      (buildSingle "n/" "1" declaredAgain).unprocessed =
        [⟨some "String", "0: ldc // String n/hidden"⟩, ⟨some "String", "0: ldc // String n/hidden"⟩] := by
  obtain ⟨listed, single⟩ := no_mention_dropped
  obtain ⟨bodies, accounts⟩ := listed "n/" "1" "A" guardedListing guardedPrinted
  obtain ⟨others, again⟩ := single "n/" "1" declaredAgain
  exact ⟨⟨bodies, accounts, by decide +kernel, by decide +kernel⟩, others, again, by decide +kernel⟩

end Disassembly

end BytecodeParity
