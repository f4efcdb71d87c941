import BytecodeParity.Reference
import BytecodeParity.Proofs.TextSearch

set_option autoImplicit false

namespace BytecodeParity

def annotated (code : String) (kind : ReferenceKind) (target : String) : String :=
  code ++ " // " ++ kind.keyword ++ " " ++ target

namespace ReferenceKind

theorem of_keyword (kind : ReferenceKind) : ofKeyword? kind.keyword = some kind := by
  cases kind <;> decide

theorem keyword_inked (kind : ReferenceKind) : ∀ c ∈ kind.keyword.toList, !Text.isBlank c := by
  have inked : kind.keyword.toList.all fun c => !Text.isBlank c := by
    cases kind <;> decide
  exact List.all_eq_true.mp inked

end ReferenceKind

namespace Mention

theorem cut_keyword_blank (word rest : List Char) (blank : Char) (inked : ∀ c ∈ word, !Text.isBlank c)
    (isBlank : Text.isBlank blank) :
    cutKeyword (word ++ blank :: rest) = (String.ofList word, String.ofList rest) := by
  rw [cutKeyword, List.takeWhile_append_of_pos inked, List.dropWhile_append_of_pos inked]
  simp [isBlank]

theorem of_comment_target (namespacePrefix : String) (kind : ReferenceKind) (target : String)
    (bare : Text.Bare target) (mentions : namespacePrefix.toList <:+: target.toList) :
    ofComment namespacePrefix (' ' :: (kind.keyword.toList ++ ' ' :: target.toList)) = .symbol kind target := by
  have inked := kind.keyword_inked
  have start : Text.dropBlanks (' ' :: (kind.keyword.toList ++ ' ' :: target.toList)) =
      kind.keyword.toList ++ ' ' :: target.toList := by
    cases kind <;> rfl
  rw [ofComment, start, cut_keyword_blank _ _ ' ' inked (by decide)]
  simp only [String.ofList_toList, ReferenceKind.of_keyword, Text.trim_bare target bare]
  rw [if_pos ((Text.contains_iff _ _).mpr mentions)]

theorem of_line_annotated (namespacePrefix code : String) (kind : ReferenceKind) (target : String)
    (given : namespacePrefix ≠ "") (unmarked : ¬ commentMarker <:+: code.toList) (bare : Text.Bare target)
    (mentions : namespacePrefix.toList <:+: target.toList) :
    ofLine namespacePrefix (annotated code kind target) = .symbol kind target := by
  have chars : (annotated code kind target).toList =
      code.toList ++ ' ' :: (commentMarker ++ ' ' :: (kind.keyword.toList ++ ' ' :: target.toList)) := by
    simp [annotated, commentMarker]
  have related : Text.contains (annotated code kind target) namespacePrefix := by
    rw [Text.contains_iff, annotated, String.toList_append]
    exact mentions.trans (List.suffix_append _ _).isInfix
  have cut := Text.cut_at_separated commentMarker code.toList
    (' ' :: (kind.keyword.toList ++ ' ' :: target.toList)) ' ' (by decide) (by decide) unmarked
  rw [ofLine, if_neg (by simp [given, related]), chars, cut]
  exact of_comment_target namespacePrefix kind target bare mentions

end Mention

theorem symbol_of_annotated (namespacePrefix code : String) (kind : ReferenceKind) (target : String)
    (given : namespacePrefix ≠ "") (unmarked : ¬ Mention.commentMarker <:+: code.toList) (bare : Text.Bare target)
    (mentions : namespacePrefix.toList <:+: target.toList) :
    symbolOf? namespacePrefix (annotated code kind target) = some target := by
  rw [symbolOf?, Mention.of_line_annotated namespacePrefix code kind target given unmarked bare mentions]
  rfl

theorem symbol_of_unmarked (namespacePrefix line : String) (unmarked : ¬ Mention.commentMarker <:+: line.toList) :
    symbolOf? namespacePrefix line = none := by
  rw [symbolOf?, Mention.ofLine, Text.cut_at_absent _ _ unmarked]
  split <;> rfl

theorem symbol_in_namespace (namespacePrefix line symbol : String) (read : symbolOf? namespacePrefix line = some symbol) :
    namespacePrefix.toList <:+: symbol.toList ∧ Text.Bare symbol := by
  rw [symbolOf?, Mention.ofLine] at read
  split at read
  · cases read
  · split at read
    · cases read
    · simp only [Mention.ofComment] at read
      split at read
      · cases read
      · split at read
        · next mentions =>
            obtain rfl := Option.some.inj read
            exact ⟨(Text.contains_iff _ _).mp mentions, Text.trim_inked _⟩
        · cases read

end BytecodeParity
