import BytecodeParity.SymbolTable

set_option autoImplicit false

namespace BytecodeParity.SymbolTable

theorem lookup_cons_row (query : String) (row : Row) (rows : List Row) :
    (row :: rows).lookup query = if query = row.1 then some row.2 else rows.lookup query := by
  obtain ⟨signature, symbols⟩ := row
  by_cases same : query = signature
  · simp [same]
  · simp [List.lookup_cons, same, beq_false_of_ne same]

theorem lookup_of_mem (rows : List Row) (distinct : (rows.map (·.1)).Nodup) (row : Row) (member : row ∈ rows) :
    rows.lookup row.1 = some row.2 := by
  induction rows with
  | nil => cases member
  | cons first rest ih =>
      rw [List.map_cons, List.nodup_cons] at distinct
      rcases List.mem_cons.mp member with rfl | later
      · rw [lookup_cons_row, if_pos rfl]
      · have different : row.1 ≠ first.1 := fun same => distinct.1 (same ▸ List.mem_map_of_mem later)
        rw [lookup_cons_row, if_neg different, ih distinct.2 later]

theorem lookup_insert_row (signature query : String) (symbols : List String) (rows : List Row) :
    (insertRow signature symbols rows).lookup query =
      if query = signature then some symbols else rows.lookup query := by
  induction rows with
  | nil => simp only [insertRow, lookup_cons_row]
  | cons row rest ih =>
      by_cases less : signature < row.1
      · simp only [insertRow, if_pos less, lookup_cons_row]
      · by_cases same : signature = row.1
        · subst same
          by_cases hit : query = row.1 <;> simp [insertRow, lookup_cons_row, hit]
        · rw [insertRow, if_neg less, if_neg same, lookup_cons_row, lookup_cons_row, ih]
          by_cases hit : query = row.1
          · simp [hit, Ne.symm same]
          · simp [hit]

theorem find_insert (table : SymbolTable) (signature query : String) (symbols : List String) :
    (table.insert signature symbols).find? query =
      if query = signature then some symbols else table.find? query :=
  lookup_insert_row signature query symbols table.rows

theorem find_is_some_iff (table : SymbolTable) (signature : String) :
    (table.find? signature).isSome ↔ signature ∈ table.signatures := by
  simp [find?, signatures]

theorem contains_iff (table : SymbolTable) (signature : String) :
    table.contains signature ↔ signature ∈ table.signatures :=
  find_is_some_iff table signature

theorem find_none_iff (table : SymbolTable) (signature : String) :
    table.find? signature = none ↔ signature ∉ table.signatures := by
  rw [← find_is_some_iff]
  simp

theorem lookup_unknown (signature : String) (rows : List Row) (unknown : ∀ row ∈ rows, signature ≠ row.1) :
    rows.lookup signature = none := by
  rw [List.lookup_eq_none_iff]
  intro row member
  exact bne_iff_ne.mpr (unknown row member)

theorem lookup_below (signature : String) (rows : List Row) (below : ∀ row ∈ rows, signature < row.1) :
    rows.lookup signature = none :=
  lookup_unknown signature rows fun row member same => String.lt_irrefl row.1 (same ▸ below row member)

-- The first of ascending rows has the least signature, so no rows with the
-- same look-ups can start above it.
theorem first_not_below (row other : Row) (rest others : List Row)
    (ascending : (other :: others).Pairwise fun x y => x.1 < y.1)
    (same : ∀ query, (row :: rest).lookup query = (other :: others).lookup query) : ¬ row.1 < other.1 := by
  intro less
  have below : ∀ entry ∈ other :: others, row.1 < entry.1 := by
    intro entry member
    rcases List.mem_cons.mp member with rfl | later
    · exact less
    · exact String.lt_trans less ((List.pairwise_cons.mp ascending).1 entry later)
  have found := same row.1
  rw [lookup_cons_row, if_pos rfl, lookup_below row.1 (other :: others) below] at found
  cases found

theorem rows_eq_of_lookup (a b : List Row) (ascendingA : a.Pairwise fun x y => x.1 < y.1)
    (ascendingB : b.Pairwise fun x y => x.1 < y.1) (same : ∀ query, a.lookup query = b.lookup query) : a = b := by
  induction a generalizing b with
  | nil =>
      cases b with
      | nil => rfl
      | cons row rest =>
          have found := same row.1
          simp [lookup_cons_row] at found
  | cons row rest ih =>
      cases b with
      | nil =>
          have found := same row.1
          simp [lookup_cons_row] at found
      | cons other others =>
          have notBelow := first_not_below row other rest others ascendingB same
          have notAbove := first_not_below other row others rest ascendingA (fun query => (same query).symm)
          have signature : row.1 = other.1 :=
            String.le_antisymm (String.not_lt.mp notAbove) (String.not_lt.mp notBelow)
          have symbols : row.2 = other.2 := by
            have found := same row.1
            rw [lookup_cons_row, if_pos rfl, lookup_cons_row, if_pos signature] at found
            exact Option.some.inj found
          obtain ⟨firstA, restA⟩ := List.pairwise_cons.mp ascendingA
          obtain ⟨firstB, restB⟩ := List.pairwise_cons.mp ascendingB
          have tails : rest = others := by
            apply ih others restA restB
            intro query
            by_cases hit : query = row.1
            · subst hit
              rw [lookup_below row.1 rest firstA, lookup_below row.1 others (signature ▸ firstB)]
            · have found := same query
              rwa [lookup_cons_row, if_neg hit, lookup_cons_row, if_neg (signature ▸ hit)] at found
          rw [tails, Prod.ext signature symbols]

theorem eq_of_find (a b : SymbolTable) (same : ∀ query, a.find? query = b.find? query) : a = b := by
  cases a with
  | mk rowsA ascendingA =>
      cases b with
      | mk rowsB ascendingB =>
          have rows : rowsA = rowsB := rows_eq_of_lookup rowsA rowsB ascendingA ascendingB same
          subst rows
          rfl

end BytecodeParity.SymbolTable
