import BytecodeParity.Text.Basic

set_option autoImplicit false

namespace BytecodeParity.Text

def Bare (s : String) : Prop :=
  (∀ c ∈ s.toList.head?, isBlank c = false) ∧ ∀ c ∈ s.toList.getLast?, isBlank c = false

theorem drop_blanks_eq (cs : List Char) (inked : ∀ c ∈ cs.head?, isBlank c = false) : dropBlanks cs = cs := by
  cases cs with
  | nil => rfl
  | cons c rest =>
      have notBlank : isBlank c = false := inked c rfl
      simp [dropBlanks, notBlank]

theorem drop_blanks_indented (indent cs : List Char) (blank : ∀ c ∈ indent, isBlank c) :
    dropBlanks (indent ++ cs) = dropBlanks cs :=
  List.dropWhile_append_of_pos blank

theorem drop_end_blanks_padded (cs back : List Char) (blank : ∀ c ∈ back, isBlank c)
    (inked : ∀ c ∈ cs.getLast?, isBlank c = false) : dropEndBlanks (cs ++ back) = cs := by
  have blankFirst : ∀ c ∈ back.reverse, isBlank c := fun c member => blank c (List.mem_reverse.mp member)
  have inkedFirst : ∀ c ∈ cs.reverse.head?, isBlank c = false := by
    rw [List.head?_reverse]
    exact inked
  have kept : (back.reverse ++ cs.reverse).dropWhile isBlank = cs.reverse :=
    (drop_blanks_indented _ _ blankFirst).trans (drop_blanks_eq _ inkedFirst)
  rw [dropEndBlanks, List.reverse_append, kept, List.reverse_reverse]

theorem trim_padded (front s back : String) (blankFront : ∀ c ∈ front.toList, isBlank c)
    (blankBack : ∀ c ∈ back.toList, isBlank c) (bare : Bare s) : trim (front ++ s ++ back) = s := by
  rw [trim, trimChars, String.toList_append, String.toList_append, List.append_assoc,
    drop_blanks_indented _ _ blankFront]
  cases chars : s.toList with
  | nil =>
      have nothing : dropBlanks (back.toList ++ []) = [] := drop_blanks_indented back.toList [] blankBack
      rw [List.append_nil] at nothing
      rw [List.nil_append, nothing, ← String.ofList_toList (s := s), chars]
      rfl
  | cons c rest =>
      have inked : isBlank c = false := bare.1 c (by rw [chars]; rfl)
      have start : dropBlanks (c :: rest ++ back.toList) = c :: rest ++ back.toList :=
        drop_blanks_eq _ (by simpa using inked)
      rw [start, drop_end_blanks_padded _ _ blankBack (chars ▸ bare.2), ← chars, String.ofList_toList]

theorem trim_indented (indent s : String) (blank : ∀ c ∈ indent.toList, isBlank c) (bare : Bare s) :
    trim (indent ++ s) = s := by
  simpa using trim_padded indent s "" blank (by simp) bare

theorem trim_bare (s : String) (bare : Bare s) : trim s = s := by
  have nothing : ∀ c ∈ "".toList, isBlank c := by simp
  simpa using trim_indented "" s nothing bare

theorem exists_indent (cs : List Char) :
    ∃ indent : String, (∀ c ∈ indent.toList, isBlank c) ∧ cs = indent.toList ++ dropBlanks cs := by
  refine ⟨String.ofList (cs.takeWhile isBlank), ?_, ?_⟩ <;> rw [String.toList_ofList]
  · exact fun c member => List.all_eq_true.mp List.all_takeWhile c member
  · exact List.takeWhile_append_dropWhile.symm

theorem exists_padding (s : String) :
    ∃ front back : String, (∀ c ∈ front.toList, isBlank c) ∧ (∀ c ∈ back.toList, isBlank c) ∧
      s = front ++ trim s ++ back := by
  obtain ⟨front, blankFront, whole⟩ := exists_indent s.toList
  obtain ⟨reversed, blankReversed, ending⟩ := exists_indent (dropBlanks s.toList).reverse
  have kept : dropBlanks s.toList = trimChars s.toList ++ reversed.toList.reverse := by
    have flipped := congrArg List.reverse ending
    rwa [List.reverse_reverse, List.reverse_append] at flipped
  refine ⟨front, String.ofList reversed.toList.reverse, blankFront, by simpa using blankReversed, ?_⟩
  rw [← String.toList_inj, String.toList_append, String.toList_append, trim, String.toList_ofList,
    String.toList_ofList, List.append_assoc, ← kept]
  exact whole

theorem drop_end_blanks_front (cs : List Char) : dropEndBlanks cs <+: cs := by
  have ending := List.reverse_prefix.mpr (List.dropWhile_suffix (l := cs.reverse) isBlank)
  rwa [List.reverse_reverse] at ending

theorem trim_infix (s : String) : (trim s).toList <:+: s.toList := by
  rw [trim, String.toList_ofList, trimChars]
  exact (drop_end_blanks_front _).isInfix.trans (List.dropWhile_suffix isBlank).isInfix

theorem drop_blanks_inked (cs : List Char) : ∀ c ∈ (dropBlanks cs).head?, isBlank c = false := by
  intro c first
  have stopped := List.head?_dropWhile_not isBlank cs
  rw [dropBlanks] at first
  rw [Option.mem_def.mp first] at stopped
  simpa using stopped

theorem trim_inked (s : String) : Bare (trim s) := by
  rw [Bare, trim, String.toList_ofList, trimChars]
  constructor
  · intro c first
    obtain ⟨rest, whole⟩ := drop_end_blanks_front (dropBlanks s.toList)
    apply drop_blanks_inked s.toList
    rw [← whole, List.head?_append, Option.mem_def.mp first]
    rfl
  · intro c last
    rw [dropEndBlanks, List.getLast?_reverse] at last
    exact drop_blanks_inked _ c last

theorem occurs_iff_infix (part cs : List Char) : occurs part cs ↔ part <:+: cs := by
  induction cs with
  | nil => simp [occurs]
  | cons c rest ih =>
      rw [occurs, Bool.or_eq_true, ih, List.isPrefixOf_iff_prefix, List.infix_cons_iff]

theorem contains_iff (whole part : String) : contains whole part ↔ part.toList <:+: whole.toList :=
  occurs_iff_infix part.toList whole.toList

structure FirstAt (mark cs before after : List Char) : Prop where
  here : cs = before ++ (mark ++ after)
  first : ∀ front back, cs = front ++ (mark ++ back) → before.length ≤ front.length

theorem first_at_start_iff (mark rest before after : List Char) :
    FirstAt mark (mark ++ rest) before after ↔ before = [] ∧ after = rest := by
  constructor
  · rintro ⟨here, first⟩
    obtain rfl : before = [] := List.length_eq_zero_iff.mp (Nat.le_zero.mp (first [] rest rfl))
    exact ⟨rfl, (List.append_cancel_left here).symm⟩
  · rintro ⟨rfl, rfl⟩
    exact ⟨rfl, fun front _ _ => Nat.zero_le front.length⟩

theorem first_at_later_iff (mark rest before after : List Char) (c : Char) (notHere : ¬ mark <+: c :: rest) :
    FirstAt mark (c :: rest) before after ↔ ∃ earlier, FirstAt mark rest earlier after ∧ c :: earlier = before := by
  constructor
  · rintro ⟨here, first⟩
    cases before with
    | nil => exact absurd ⟨after, here.symm⟩ notHere
    | cons d earlier =>
        obtain ⟨rfl, behind⟩ := List.cons.inj here
        refine ⟨earlier, ⟨behind, fun front back found => ?_⟩, rfl⟩
        exact Nat.le_of_succ_le_succ (first (c :: front) back (congrArg _ found))
  · rintro ⟨earlier, ⟨here, first⟩, rfl⟩
    refine ⟨congrArg _ here, fun front back found => ?_⟩
    cases front with
    | nil => exact absurd ⟨back, found.symm⟩ notHere
    | cons d front => exact Nat.succ_le_succ (first front back (List.cons.inj found).2)

theorem cut_at_iff (mark cs before after : List Char) :
    cutAt mark cs = some (before, after) ↔ FirstAt mark cs before after := by
  induction cs generalizing before with
  | nil =>
      cases mark with
      | nil => exact Iff.trans (by simp [cutAt, eq_comm]) (first_at_start_iff [] [] before after).symm
      | cons c mark => exact iff_of_false (by simp [cutAt]) fun found => by simpa using found.here
  | cons c rest ih =>
      by_cases here : mark <+: c :: rest
      · obtain ⟨behind, whole⟩ := here
        rw [cutAt, if_pos (List.isPrefixOf_iff_prefix.mpr ⟨behind, whole⟩), ← whole, first_at_start_iff,
          List.drop_left]
        simp [eq_comm]
      · rw [cutAt, if_neg (mt List.isPrefixOf_iff_prefix.mp here), first_at_later_iff _ _ _ _ _ here]
        simp [← ih]

theorem cut_at_absent (mark cs : List Char) (absent : ¬ mark <:+: cs) : cutAt mark cs = none := by
  refine Option.eq_none_iff_forall_ne_some.mpr fun parts cut => absent ⟨parts.1, parts.2, ?_⟩
  rw [((cut_at_iff _ _ _ _).mp cut).here, List.append_assoc]

theorem cut_at_suffix (mark cs before after : List Char) (cut : cutAt mark cs = some (before, after)) :
    after <:+ cs := by
  rw [((cut_at_iff _ _ _ _).mp cut).here]
  exact (List.suffix_append mark after).trans (List.suffix_append before _)

-- A mark without the separator cannot reach over the separator.
theorem prefix_before_separator (mark before after : List Char) (separator : Char) (foreign : separator ∉ mark)
    (isPrefix : mark <+: before ++ separator :: after) : mark <+: before := by
  have upToSeparator : before ++ [separator] <+: before ++ separator :: after := ⟨after, by simp⟩
  rcases List.prefix_or_prefix_of_prefix isPrefix upToSeparator with inside | beyond
  · rcases List.prefix_concat_iff.mp inside with whole | shorter
    · exact absurd (whole ▸ List.mem_append_right before List.mem_cons_self) foreign
    · exact shorter
  · exact absurd (beyond.subset (List.mem_append_right before List.mem_cons_self)) foreign

theorem cut_at_separated (mark before after : List Char) (separator : Char) (nonempty : mark ≠ [])
    (foreign : separator ∉ mark) (absent : ¬ mark <:+: before) :
    cutAt mark (before ++ separator :: (mark ++ after)) = some (before ++ [separator], after) := by
  have here : cutAt mark (mark ++ after) = some ([], after) := by
    obtain ⟨first, rest, rfl⟩ := List.exists_cons_of_ne_nil nonempty
    simp [cutAt]
  induction before with
  | nil =>
      have notHere : ¬ mark.isPrefixOf (separator :: (mark ++ after)) := by
        rw [List.isPrefixOf_iff_prefix]
        intro isPrefix
        exact nonempty (List.prefix_nil.mp (prefix_before_separator mark [] _ separator foreign isPrefix))
      rw [List.nil_append, cutAt, if_neg notHere, here]
      rfl
  | cons c rest ih =>
      rw [List.infix_cons_iff, not_or] at absent
      obtain ⟨notPrefix, notLater⟩ := absent
      have notHere : ¬ mark.isPrefixOf (c :: (rest ++ separator :: (mark ++ after))) := by
        rw [List.isPrefixOf_iff_prefix]
        exact fun isPrefix => notPrefix (prefix_before_separator mark (c :: rest) _ separator foreign isPrefix)
      rw [List.cons_append, cutAt, if_neg notHere, ih notLater]
      rfl

end BytecodeParity.Text
