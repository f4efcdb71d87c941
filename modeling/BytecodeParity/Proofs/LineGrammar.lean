import BytecodeParity.Proofs.DisassemblyView
import BytecodeParity.Proofs.ReferenceLine

set_option autoImplicit false

namespace BytecodeParity

namespace ReferenceKind

theorem of_keyword_iff (word : String) (kind : ReferenceKind) : ofKeyword? word = some kind ↔ word = kind.keyword := by
  constructor
  · intro known
    rw [ofKeyword?] at known
    grind
  · rintro rfl
    exact of_keyword kind

theorem keyword_given (kind : ReferenceKind) : kind.keyword ≠ "" := by
  cases kind <;> decide

theorem exists_keyword_iff (word : String) :
    (∃ kind : ReferenceKind, word = kind.keyword) ↔ word ∈ ["Method", "InterfaceMethod", "Field", "class"] := by
  constructor
  · rintro ⟨kind, rfl⟩
    cases kind <;> decide
  · intro known
    simp only [List.mem_cons, List.not_mem_nil, or_false] at known
    rcases known with rfl | rfl | rfl | rfl
    · exact ⟨.method, rfl⟩
    · exact ⟨.interfaceMethod, rfl⟩
    · exact ⟨.field, rfl⟩
    · exact ⟨.classType, rfl⟩

end ReferenceKind

namespace Mention

structure IsAnnotation (comment : List Char) (word target indent gap trailing : String) : Prop where
  whole : comment = indent.toList ++ (word.toList ++ (gap.toList ++ (target.toList ++ trailing.toList)))
  indentBlank : ∀ c ∈ indent.toList, Text.isBlank c
  gapBlank : ∀ c ∈ gap.toList, Text.isBlank c
  gapGiven : gap ≠ ""
  trailingBlank : ∀ c ∈ trailing.toList, Text.isBlank c

theorem of_comment_iff (namespacePrefix : String) (comment : List Char) (kind : ReferenceKind) (target : String) :
    ofComment namespacePrefix comment = .symbol kind target ↔
      ∃ rest, cutKeyword (Text.dropBlanks comment) = (kind.keyword, rest) ∧ Text.trim rest = target ∧
        Text.contains target namespacePrefix := by
  cases cut : cutKeyword (Text.dropBlanks comment) with
  | mk word rest =>
      simp only [ofComment, cut, Prod.mk.injEq, ← ReferenceKind.of_keyword_iff]
      cases ReferenceKind.ofKeyword? word with
      | none => simp
      | some known =>
          by_cases mentions : Text.contains (Text.trim rest) namespacePrefix
          · simp only [mentions, if_true, symbol.injEq]
            constructor
            · rintro ⟨rfl, rfl⟩
              exact ⟨rest, ⟨rfl, rfl⟩, rfl, mentions⟩
            · rintro ⟨_, ⟨same, rfl⟩, rfl, _⟩
              exact ⟨Option.some.inj same, rfl⟩
          · simp only [mentions]
            constructor
            · intro read
              cases read
            · rintro ⟨_, ⟨_, rfl⟩, rfl, contained⟩
              exact absurd contained mentions

theorem cut_keyword_behind (cs : List Char) (word rest : String) (given : rest ≠ "")
    (cut : cutKeyword cs = (word, rest)) :
    ∃ blank, Text.isBlank blank ∧ cs = word.toList ++ blank :: rest.toList := by
  obtain ⟨rfl, rfl⟩ := Prod.mk.inj cut
  have whole := List.takeWhile_append_dropWhile (p := fun c => !Text.isBlank c) (l := cs)
  have stopped := List.head?_dropWhile_not (fun c => !Text.isBlank c) cs
  rw [String.toList_ofList, String.toList_ofList]
  cases behind : cs.dropWhile fun c => !Text.isBlank c with
  | nil => simp [behind] at given
  | cons blank rest =>
      rw [behind] at stopped whole
      exact ⟨blank, by simpa using stopped, whole.symm⟩

theorem annotation_of_comment (namespacePrefix : String) (given : namespacePrefix ≠ "") (comment : List Char)
    (kind : ReferenceKind) (rest : String) (cut : cutKeyword (Text.dropBlanks comment) = (kind.keyword, rest))
    (mentions : Text.contains (Text.trim rest) namespacePrefix) :
    ∃ indent gap trailing, IsAnnotation comment kind.keyword (Text.trim rest) indent gap trailing := by
  have nonempty : rest ≠ "" := by
    rintro rfl
    exact given (String.toList_eq_nil_iff.mp (List.infix_nil.mp ((Text.contains_iff _ _).mp mentions)))
  obtain ⟨blank, isBlank, behind⟩ := cut_keyword_behind _ _ rest nonempty cut
  obtain ⟨indent, indentBlank, whole⟩ := Text.exists_indent comment
  obtain ⟨front, trailing, frontBlank, trailingBlank, padded⟩ := Text.exists_padding rest
  have restChars : rest.toList = front.toList ++ ((Text.trim rest).toList ++ trailing.toList) := by
    rw [← List.append_assoc, ← String.toList_append, ← String.toList_append, ← padded]
  refine ⟨indent, String.ofList (blank :: front.toList), trailing, ?_⟩
  refine { whole := ?_, indentBlank := indentBlank, gapBlank := ?_, gapGiven := ?_, trailingBlank := trailingBlank }
  · rw [whole, behind, restChars, String.toList_ofList, List.cons_append]
  · rw [String.toList_ofList, List.forall_mem_cons]
    exact ⟨isBlank, frontBlank⟩
  · exact mt String.toList_eq_nil_iff.mpr (by simp)

theorem drop_blanks_word {word : String} (cs : List Char) (given : word ≠ "")
    (inked : ∀ c ∈ word.toList, !Text.isBlank c) : Text.dropBlanks (word.toList ++ cs) = word.toList ++ cs := by
  obtain ⟨c, more, chars⟩ := List.exists_cons_of_ne_nil (mt String.toList_eq_nil_iff.mp given)
  have first := inked c (chars ▸ List.mem_cons_self ..)
  refine Text.drop_blanks_eq _ ?_
  rw [chars]
  simpa using first

theorem comment_of_annotation (comment : List Char) (kind : ReferenceKind) (target indent gap trailing : String)
    (bare : Text.Bare target) (pieces : IsAnnotation comment kind.keyword target indent gap trailing) :
    ∃ rest, cutKeyword (Text.dropBlanks comment) = (kind.keyword, rest) ∧ Text.trim rest = target := by
  obtain ⟨blank, front, gapChars⟩ := List.exists_cons_of_ne_nil (mt String.toList_eq_nil_iff.mp pieces.gapGiven)
  have gapBlank := pieces.gapBlank
  rw [gapChars, List.forall_mem_cons] at gapBlank
  have inked : Text.dropBlanks comment =
      kind.keyword.toList ++ blank :: (String.ofList front ++ target ++ trailing).toList := by
    rw [pieces.whole, Text.drop_blanks_indented _ _ pieces.indentBlank,
      drop_blanks_word _ kind.keyword_given kind.keyword_inked, gapChars]
    simp
  refine ⟨String.ofList front ++ target ++ trailing, ?_, ?_⟩
  · rw [inked, cut_keyword_blank _ _ blank kind.keyword_inked gapBlank.1, String.ofList_toList, String.ofList_toList]
  · exact Text.trim_padded _ target trailing (by simpa using gapBlank.2) pieces.trailingBlank bare

theorem symbol_annotation_iff (namespacePrefix : String) (given : namespacePrefix ≠ "") (comment : List Char)
    (target : String) :
    (ofComment namespacePrefix comment).symbol? = some target ↔
      Text.contains target namespacePrefix ∧ Text.Bare target ∧ ∃ (kind : ReferenceKind) (indent gap trailing : String),
        IsAnnotation comment kind.keyword target indent gap trailing := by
  have named : (ofComment namespacePrefix comment).symbol? = some target ↔
      ∃ kind, ofComment namespacePrefix comment = .symbol kind target := by
    cases ofComment namespacePrefix comment <;> simp [symbol?]
  simp only [named, of_comment_iff]
  constructor
  · rintro ⟨kind, rest, cut, rfl, mentions⟩
    exact ⟨mentions, Text.trim_inked rest, kind, annotation_of_comment _ given comment kind rest cut mentions⟩
  · rintro ⟨mentions, bare, kind, indent, gap, trailing, pieces⟩
    obtain ⟨rest, cut, trimmed⟩ := comment_of_annotation comment kind target indent gap trailing bare pieces
    exact ⟨kind, rest, cut, trimmed, mentions⟩

theorem comment_iff (line : String) (comment : List Char) :
    comment? line = some comment ↔ ∃ before : String, Text.FirstAt commentMarker line.toList before.toList comment := by
  simp only [comment?, Option.map_eq_some_iff, Prod.exists, Text.cut_at_iff]
  constructor
  · rintro ⟨before, _, first, rfl⟩
    exact ⟨String.ofList before, by rwa [String.toList_ofList]⟩
  · rintro ⟨before, first⟩
    exact ⟨before.toList, comment, first, rfl⟩

theorem first_marker_iff (line before after : String) :
    Text.FirstAt commentMarker line.toList before.toList after.toList ↔
      line = before ++ "//" ++ after ∧ ∀ front back, line = front ++ "//" ++ back → before.length ≤ front.length := by
  have cutHere : ∀ front back : String, line = front ++ "//" ++ back ↔
      line.toList = front.toList ++ (commentMarker ++ back.toList) := by
    intro front back
    rw [← String.toList_inj, String.toList_append, String.toList_append, List.append_assoc]
    rfl
  constructor
  · rintro ⟨here, first⟩
    refine ⟨(cutHere before after).mpr here, fun front back found => ?_⟩
    rw [← String.length_toList, ← String.length_toList]
    exact first front.toList back.toList ((cutHere front back).mp found)
  · rintro ⟨here, first⟩
    refine ⟨(cutHere before after).mp here, fun front back found => ?_⟩
    have further := first (String.ofList front) (String.ofList back) (by simpa [cutHere] using found)
    rwa [← String.length_toList, ← String.length_toList, String.toList_ofList] at further

end Mention

-- A line in its pieces. Any text may stand before the marker, but no other marker begins in it.
structure IsReference (line target before indent word gap trailing : String) : Prop where
  whole : line = before ++ "//" ++ indent ++ word ++ gap ++ target ++ trailing
  firstMarker : ∀ front back, line = front ++ "//" ++ back → before.length ≤ front.length
  keyword : word ∈ ["Method", "InterfaceMethod", "Field", "class"]
  indentBlank : ∀ c ∈ indent.toList, Text.isBlank c
  gapBlank : ∀ c ∈ gap.toList, Text.isBlank c
  gapGiven : gap ≠ ""
  trailingBlank : ∀ c ∈ trailing.toList, Text.isBlank c
  bare : Text.Bare target

theorem is_reference_iff (line target before indent word gap trailing : String) :
    IsReference line target before indent word gap trailing ↔
      ∃ comment, Text.FirstAt Mention.commentMarker line.toList before.toList comment ∧
        Text.Bare target ∧ (∃ kind : ReferenceKind, word = kind.keyword) ∧
          Mention.IsAnnotation comment word target indent gap trailing := by
  rw [ReferenceKind.exists_keyword_iff]
  constructor
  · intro pieces
    have whole : line = before ++ "//" ++ (indent ++ word ++ gap ++ target ++ trailing) := by
      simp only [pieces.whole, String.append_assoc]
    refine ⟨_, (Mention.first_marker_iff line before _).mpr ⟨whole, pieces.firstMarker⟩, pieces.bare, pieces.keyword, ?_⟩
    exact ⟨by simp, pieces.indentBlank, pieces.gapBlank, pieces.gapGiven, pieces.trailingBlank⟩
  · rintro ⟨comment, first, bare, keyword, pieces⟩
    have chars : comment = (indent ++ word ++ gap ++ target ++ trailing).toList := by simp [pieces.whole]
    obtain ⟨whole, firstMarker⟩ := (Mention.first_marker_iff line before _).mp (chars ▸ first)
    refine ⟨?_, firstMarker, keyword, pieces.indentBlank, pieces.gapBlank, pieces.gapGiven, pieces.trailingBlank, bare⟩
    simp only [whole, String.append_assoc]

-- Blank is what has the property White_Space. An empty prefix is a part of every target, and yet no
-- line refers to it.
theorem symbol_iff_grammar (namespacePrefix line symbol : String) :
    symbolOf? namespacePrefix line = some symbol ↔
      namespacePrefix ≠ "" ∧ ∃ before indent word gap trailing,
        IsReference line symbol before indent word gap trailing ∧
          namespacePrefix.toList <:+: symbol.toList := by
  by_cases given : namespacePrefix = ""
  · simp [symbolOf?, Mention.ofLine, given, Mention.symbol?]
  · simp only [Mention.symbol_of_comment _ _ given, Option.bind_eq_some_iff, Mention.comment_iff,
      Mention.symbol_annotation_iff _ given, is_reference_iff, Text.contains_iff, ne_eq, given, not_false_eq_true,
      true_and]
    constructor
    · rintro ⟨comment, ⟨before, first⟩, mentions, bare, kind, indent, gap, trailing, pieces⟩
      exact ⟨before, indent, kind.keyword, gap, trailing, ⟨comment, first, bare, ⟨kind, rfl⟩, pieces⟩, mentions⟩
    · rintro ⟨before, indent, _, gap, trailing, ⟨comment, first, bare, ⟨kind, rfl⟩, pieces⟩, mentions⟩
      exact ⟨comment, ⟨before, first⟩, mentions, bare, kind, indent, gap, trailing, pieces⟩

example :
    symbolOf? "n/" "0: call /// Method n/A" = none ∧
      symbolOf? "n/" "0: call // n/B // Method n/A" = none ∧
      symbolOf? "n/" "n//\u2003class\u3000 [Ln/A; // ;\t" = some "[Ln/A; // ;" := by
  decide +kernel

end BytecodeParity
