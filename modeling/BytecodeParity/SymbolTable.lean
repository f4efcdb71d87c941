set_option autoImplicit false

namespace BytecodeParity

abbrev SymbolTable.Row := String × List String

/-- Puts a row at its place among ascending rows, instead of a row with the same signature. -/
def SymbolTable.insertRow (signature : String) (symbols : List String) : List SymbolTable.Row → List SymbolTable.Row
  | [] => [(signature, symbols)]
  | row :: rest =>
      if signature < row.1 then (signature, symbols) :: row :: rest
      else if signature = row.1 then (signature, symbols) :: rest
      else row :: insertRow signature symbols rest

theorem SymbolTable.mem_insert_row {signature : String} {symbols : List String} {rows : List SymbolTable.Row}
    {row : SymbolTable.Row} (member : row ∈ insertRow signature symbols rows) :
    row = (signature, symbols) ∨ row ∈ rows := by
  induction rows with
  | nil => simpa [insertRow] using member
  | cons head rest ih =>
      rw [insertRow] at member
      split at member
      · simpa using member
      · split at member
        · rcases List.mem_cons.mp member with same | inRest
          · exact .inl same
          · exact .inr (List.mem_cons_of_mem _ inRest)
        · rcases List.mem_cons.mp member with same | inRest
          · exact .inr (same ▸ List.mem_cons_self)
          · exact (ih inRest).imp_right (List.mem_cons_of_mem _)

theorem SymbolTable.insert_row_ascending (signature : String) (symbols : List String)
    {rows : List SymbolTable.Row} (ascending : rows.Pairwise fun a b => a.1 < b.1) :
    (insertRow signature symbols rows).Pairwise fun a b => a.1 < b.1 := by
  induction rows with
  | nil => simp [insertRow]
  | cons head rest ih =>
      obtain ⟨headFirst, restAscending⟩ := List.pairwise_cons.mp ascending
      rw [insertRow]
      split
      · next below =>
          refine List.pairwise_cons.mpr ⟨fun row member => ?_, ascending⟩
          rcases List.mem_cons.mp member with rfl | inRest
          · exact below
          · exact String.lt_trans below (headFirst row inRest)
      · next notBelow =>
          split
          · next same => exact List.pairwise_cons.mpr ⟨fun row member => same ▸ headFirst row member, restAscending⟩
          · next different =>
              refine List.pairwise_cons.mpr ⟨fun row member => ?_, ih restAscending⟩
              rcases mem_insert_row member with rfl | inRest
              · exact String.not_le.mp fun atMost =>
                  different (String.le_antisymm atMost (String.not_lt.mp notBelow))
              · exact headFirst row inRest

structure SymbolTable where
  rows : List SymbolTable.Row
  ascending : rows.Pairwise fun a b => a.1 < b.1
deriving DecidableEq

namespace SymbolTable

def empty : SymbolTable := ⟨[], .nil⟩

def insert (table : SymbolTable) (signature : String) (symbols : List String) : SymbolTable :=
  ⟨insertRow signature symbols table.rows, insert_row_ascending signature symbols table.ascending⟩

/-- The table of the rows; of two rows with one signature the later one counts. -/
def ofRows (rows : List Row) : SymbolTable :=
  rows.foldl (fun table row => table.insert row.1 row.2) empty

def find? (table : SymbolTable) (signature : String) : Option (List String) :=
  table.rows.lookup signature

def contains (table : SymbolTable) (signature : String) : Bool :=
  (table.find? signature).isSome

def signatures (table : SymbolTable) : List String :=
  table.rows.map (·.1)

end SymbolTable

end BytecodeParity
