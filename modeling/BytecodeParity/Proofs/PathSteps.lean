import BytecodeParity.FileTree.Walk

set_option autoImplicit false

namespace BytecodeParity

namespace Text

theorem split_chars_free (separator : Char) (cs : List Char) (free : separator ∉ cs) :
    splitChars separator cs = [cs] := by
  induction cs with
  | nil => rfl
  | cons c rest ih =>
      rw [List.mem_cons, not_or] at free
      simp only [splitChars, ih free.2, if_neg (Ne.symm free.1)]

-- What the texts with a common front are split into differs in the last piece, when no separator follows.
theorem split_chars_last (separator : Char) (front : List Char) :
    ∃ pieces piece, ∀ tail, separator ∉ tail → splitChars separator (front ++ tail) = pieces ++ [piece ++ tail] := by
  induction front with
  | nil => exact ⟨[], [], fun tail free => split_chars_free separator tail free⟩
  | cons c front ih =>
      obtain ⟨pieces, piece, split⟩ := ih
      cases pieces with
      | nil =>
          by_cases separates : c = separator
          · exact ⟨[[]], piece, fun tail free => by simp [splitChars, split tail free, separates]⟩
          · exact ⟨[], c :: piece, fun tail free => by simp [splitChars, split tail free, separates]⟩
      | cons first pieces =>
          by_cases separates : c = separator
          · exact ⟨[] :: first :: pieces, piece, fun tail free => by simp [splitChars, split tail free, separates]⟩
          · exact ⟨(c :: first) :: pieces, piece, fun tail free => by simp [splitChars, split tail free, separates]⟩

theorem split_chars_nonempty (separator : Char) (cs : List Char) : splitChars separator cs ≠ [] := by
  cases cs with
  | nil => simp [splitChars]
  | cons c rest =>
      rw [splitChars]
      split
      · simp
      · split <;> simp

theorem split_chars_cut (separator : Char) (front tail : List Char) :
    splitChars separator (front ++ separator :: tail) = splitChars separator front ++ splitChars separator tail := by
  induction front with
  | nil =>
      rw [List.nil_append, splitChars, splitChars]
      cases split : splitChars separator tail with
      | nil => exact absurd split (split_chars_nonempty separator tail)
      | cons piece pieces => simp
  | cons c front ih =>
      rw [List.cons_append, splitChars, ih, splitChars]
      cases split : splitChars separator front with
      | nil => exact absurd split (split_chars_nonempty separator front)
      | cons piece pieces =>
          by_cases separates : c = separator <;> simp [separates]

theorem split_cut (front tail : String) : split '/' (front ++ "/" ++ tail) = split '/' front ++ split '/' tail := by
  have chars : (front ++ "/" ++ tail).toList = front.toList ++ '/' :: tail.toList := by
    simp [String.toList_append]
  rw [split, chars, split_chars_cut, List.map_append, split, split]

theorem split_free (s : String) (free : '/' ∉ s.toList) : split '/' s = [s] := by
  rw [split, split_chars_free _ _ free, List.map_singleton, String.ofList_toList]

end Text

namespace Path

structure EndsIn (path name : String) : Prop where
  spelled : ∃ names, steps path = names ++ [name]
  here : name ≠ "."
  up : name ≠ ".."

theorem join_ends (base part : String) : ∃ front, join base part = front ++ part := by
  rw [join]
  split
  · exact ⟨"", String.empty_append.symm⟩
  · split
    · exact ⟨base, rfl⟩
    · exact ⟨base ++ "/", rfl⟩

theorem ends_in_of_suffix (path : String) (tail : List Char) (free : '/' ∉ tail) (long : 2 < tail.length)
    (suffix : tail <:+ path.toList) : ∃ name, EndsIn path name ∧ tail <:+ name.toList := by
  obtain ⟨front, spells⟩ := suffix
  obtain ⟨pieces, piece, split⟩ := Text.split_chars_last '/' front
  have longer : ∀ short : String, short.toList.length ≤ 2 → String.ofList (piece ++ tail) ≠ short := by
    intro short bound same
    rw [← same, String.toList_ofList, List.length_append] at bound
    omega
  have nonempty : tail ≠ [] := fun empty => by simp [empty] at long
  have noSeparator : endsInSeparator path = false := by
    rw [endsInSeparator, ← spells, List.getLast?_append, List.getLast?_eq_some_getLast nonempty]
    have different : tail.getLast nonempty ≠ '/' := fun same => free (same ▸ List.getLast_mem nonempty)
    simp [different]
  have spelled : steps path =
      (pieces.map String.ofList).filter (· ≠ "") ++ [String.ofList (piece ++ tail)] := by
    have named : decide (String.ofList (piece ++ tail) ≠ "") = true := decide_eq_true (longer "" (by decide))
    rw [steps, noSeparator, Text.split, ← spells, split tail free, List.map_append, List.filter_append]
    simp only [List.map_cons, List.map_nil, List.filter_cons, named, Bool.false_eq_true, if_true, if_false,
      List.filter_nil, List.append_nil]
  refine ⟨String.ofList (piece ++ tail), ⟨⟨_, spelled⟩, longer "." (by decide), longer ".." (by decide)⟩, ?_⟩
  rw [String.toList_ofList]
  exact List.suffix_append piece tail

theorem ends_in_separator_append (front part : String) (given : part ≠ "") :
    endsInSeparator (front ++ part) = endsInSeparator part := by
  have nonempty : part.toList ≠ [] := by simpa using given
  rw [endsInSeparator, endsInSeparator, String.toList_append, List.getLast?_append,
    List.getLast?_eq_some_getLast nonempty, Option.some_or]

def opened (base : String) : String :=
  if endsInSeparator base then base else base ++ "/"

theorem opened_append (front part : String) (given : part ≠ "") : opened (front ++ part) = front ++ opened part := by
  rw [opened, opened, ends_in_separator_append front part given]
  cases endsInSeparator part with
  | true => rfl
  | false => exact String.append_assoc ..

theorem opened_opened (base : String) : opened (opened base) = opened base := by
  rw [opened.eq_1 base]
  cases ends : endsInSeparator base with
  | true => simp [opened, ends]
  | false =>
      rw [if_neg (by simp), opened_append base "/" (by decide)]
      rfl

theorem opened_cut (base : String) :
    ∃ front, opened base = front ++ "/" ∧
      steps base = (Text.split '/' front).filter (· ≠ "") ++ (if endsInSeparator base then ["."] else []) := by
  rw [opened, steps]
  cases ends : endsInSeparator base with
  | false => exact ⟨base, rfl, rfl⟩
  | true =>
      rw [endsInSeparator, decide_eq_true_eq] at ends
      obtain ⟨cs, chars⟩ := List.getLast?_eq_some_iff.mp ends
      have spelled : base = String.ofList cs ++ "/" := by
        apply String.toList_injective
        simp [chars, String.toList_append]
      have split : Text.split '/' base = Text.split '/' (String.ofList cs) ++ [""] := by
        have cut := Text.split_cut (String.ofList cs) ""
        rw [String.append_empty, ← spelled] at cut
        exact cut
      exact ⟨String.ofList cs, spelled, by simp [split]⟩

theorem join_relative {base part : String} (given : base ≠ "") (relative : isAbsolute part = false) :
    join base part = opened base ++ part := by
  have nonempty : base.isEmpty = false := by simpa using given
  rw [join, relative, nonempty, opened]
  cases endsInSeparator base <;> simp

theorem join_of_absolute {base part : String} (apart : isAbsolute part = true) : join base part = part := by
  rw [join, apart, Bool.true_or, if_pos rfl]

theorem join_left_given {base : String} (part : String) (given : base ≠ "") : join base part ≠ "" := by
  rw [join]
  split
  · next apart =>
      intro empty
      simp [empty, isAbsolute, given] at apart
  · split <;> simp [String.append_eq_empty_iff, given]

theorem join_relative_absolute {base part : String} (given : base ≠ "") (relative : isAbsolute part = false) :
    isAbsolute (join base part) = isAbsolute base := by
  have leads : ∀ tail, isAbsolute (base ++ tail) = isAbsolute base := by
    intro tail
    rw [isAbsolute, isAbsolute, String.toList_append]
    cases chars : base.toList with
    | nil => exact absurd (by simpa using chars) given
    | cons c rest => simp [List.isPrefixOf]
  rw [join_relative given relative, opened]
  split
  · exact leads part
  · rw [String.append_assoc]
    exact leads _

theorem join_empty (part : String) : join "" part = part := by
  rw [join, if_pos]
  simp

-- Joining is associative, whatever the parts: a part that is absolute replaces all before it on either way.
theorem join_assoc (base middle part : String) : join base (join middle part) = join (join base middle) part := by
  cases apart : isAbsolute part with
  | true => rw [join_of_absolute apart, join_of_absolute apart, join_of_absolute apart]
  | false =>
      by_cases given : base = ""
      · rw [given, join_empty, join_empty]
      · have left := join_left_given middle given
        by_cases empty : middle = ""
        · have opens : join base "" = opened base := by rw [join_relative given rfl, String.append_empty]
          subst empty
          rw [join_empty, join_relative left apart, opens, opened_opened, join_relative given apart]
        · have joined := join_relative empty apart
          have absolute := join_relative_absolute empty apart
          cases above : isAbsolute middle with
          | true => rw [join_of_absolute above, join_of_absolute (absolute.trans above)]
          | false =>
              rw [join_relative given (absolute.trans above), joined, join_relative left apart,
                join_relative given above, opened_append _ _ empty, String.append_assoc]

theorem steps_join_relative {base part : String} (given : base ≠ "") (relative : isAbsolute part = false)
    (partGiven : part ≠ "") :
    ∃ front, steps base = front ++ (if endsInSeparator base then ["."] else []) ∧
      steps (join base part) = front ++ steps part := by
  obtain ⟨front, opens, spelled⟩ := opened_cut base
  refine ⟨_, spelled, ?_⟩
  rw [join_relative given relative, steps, ends_in_separator_append _ _ partGiven, opens, Text.split_cut,
    List.filter_append, List.append_assoc]
  rfl

structure IsName (name : String) : Prop where
  given : name ≠ ""
  here : name ≠ "."
  up : name ≠ ".."
  free : '/' ∉ name.toList

instance decidableIsName (name : String) : Decidable (IsName name) :=
  decidable_of_iff (name ≠ "" ∧ name ≠ "." ∧ name ≠ ".." ∧ '/' ∉ name.toList)
    ⟨fun parts => ⟨parts.1, parts.2.1, parts.2.2.1, parts.2.2.2⟩,
      fun isName => ⟨isName.given, isName.here, isName.up, isName.free⟩⟩

section Names

variable {name : String} (isName : IsName name)
include isName

theorem IsName.relative : isAbsolute name = false := by
  rw [isAbsolute]
  cases chars : name.toList with
  | nil => rfl
  | cons c rest =>
      have different : '/' ≠ c := fun same => isName.free (chars ▸ same ▸ List.mem_cons_self ..)
      simp [List.isPrefixOf, different]

theorem IsName.closed : endsInSeparator name = false := by
  have nonempty : name.toList ≠ [] := by simpa using isName.given
  have different : name.toList.getLast nonempty ≠ '/' := fun same => isName.free (same ▸ List.getLast_mem nonempty)
  rw [endsInSeparator, List.getLast?_eq_some_getLast nonempty]
  simp [different]

theorem IsName.steps : Path.steps name = [name] := by
  rw [Path.steps, isName.closed, Text.split_free name isName.free]
  simp [isName.given]

end Names

end Path

end BytecodeParity
