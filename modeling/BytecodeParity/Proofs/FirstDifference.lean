import BytecodeParity.Baselines
import BytecodeParity.Proofs.RecordInvariant

set_option autoImplicit false

namespace BytecodeParity

namespace ClassRecord

theorem locate_from_none_iff (baseline record : ClassRecord) (expected actual : List String) :
    locateFrom baseline record expected actual = none ↔
      expected = actual ∧ ∀ signature ∈ expected,
        (baseline.implementation? signature).getD [] = (record.implementation? signature).getD [] := by
  induction expected generalizing actual with
  | nil => cases actual <;> simp [locateFrom]
  | cons signature expectedRest ih =>
      cases actual with
      | nil => simp [locateFrom]
      | cons other actualRest =>
          by_cases same : signature = other
          · subst same
            by_cases agrees : (baseline.implementation? signature).getD [] = (record.implementation? signature).getD []
            · simp [locateFrom, agrees, ih]
            · simp [locateFrom, agrees]
          · simp [locateFrom, same]

-- An absent row and an empty row look alike in the walk. In well-formed records with equal methods
-- a signature has a row in both tables or in none.
theorem find_eq_of_walk (baseline record : ClassRecord) (goodBaseline : baseline.WellFormed)
    (goodRecord : record.WellFormed) (methods : baseline.methods = record.methods) (signature : String)
    (same : signature ∈ baseline.methods →
      (baseline.implementation? signature).getD [] = (record.implementation? signature).getD []) :
    baseline.table.find? signature = record.table.find? signature := by
  by_cases declared : signature ∈ baseline.methods
  · have inBaseline := (SymbolTable.find_is_some_iff _ _).mpr ((goodBaseline.2 signature).mpr declared)
    have inRecord := (SymbolTable.find_is_some_iff _ _).mpr ((goodRecord.2 signature).mpr (methods ▸ declared))
    obtain ⟨before, beforeEq⟩ := Option.isSome_iff_exists.mp inBaseline
    obtain ⟨after, afterEq⟩ := Option.isSome_iff_exists.mp inRecord
    have symbols := same declared
    simp only [implementation?, beforeEq, afterEq, Option.getD_some] at symbols
    rw [beforeEq, afterEq, symbols]
  · rw [(SymbolTable.find_none_iff _ _).mpr (mt (goodBaseline.2 signature).mp declared),
      (SymbolTable.find_none_iff _ _).mpr (mt (goodRecord.2 signature).mp (methods ▸ declared))]

theorem locate_none_iff (baseline record : ClassRecord) (goodBaseline : baseline.WellFormed)
    (goodRecord : record.WellFormed) :
    locateDivergence baseline record = none ↔ baseline.StructurallyEqual record := by
  rw [locateDivergence, locate_from_none_iff]
  constructor
  · rintro ⟨methods, symbols⟩
    exact ⟨methods, SymbolTable.eq_of_find _ _ fun signature =>
      find_eq_of_walk baseline record goodBaseline goodRecord methods signature (symbols signature)⟩
  · rintro ⟨methods, table⟩
    exact ⟨methods, fun signature _ => by rw [implementation?, implementation?, table]⟩

theorem structurally_equal_iff_lookups (a b : ClassRecord) :
    a.StructurallyEqual b ↔
      a.methods = b.methods ∧ ∀ signature, a.implementation? signature = b.implementation? signature := by
  constructor
  · rintro ⟨methods, table⟩
    exact ⟨methods, fun signature => by rw [implementation?, implementation?, table]⟩
  · rintro ⟨methods, same⟩
    exact ⟨methods, SymbolTable.eq_of_find _ _ same⟩

theorem nothing_located_iff_equal :
    (∀ record, Constructed record → record.WellFormed) ∧
    ∀ a b : ClassRecord, a.WellFormed → b.WellFormed →
      (locateDivergence a b = none ↔ a.StructurallyEqual b) ∧
      (a.StructurallyEqual b ↔
        a.methods = b.methods ∧ ∀ signature, a.implementation? signature = b.implementation? signature) :=
  ⟨constructed_well_formed, fun a b goodA goodB =>
    ⟨locate_none_iff a b goodA goodB, structurally_equal_iff_lookups a b⟩⟩

def emptyAndFull : ClassRecord :=
  .ofMethods "1" (some "A") [("m()", ["X"]), ("n()", [])]

def repeatedRow : ClassRecord :=
  .ofMethods "2" (some "A") [("m()", ["Y"]), ("n()", []), ("m()", ["X"])]

def withoutEmpty : ClassRecord :=
  .ofMethods "3" (some "A") [("m()", ["X"])]

theorem nothing_located_iff_equal_empty_body :
    (emptyAndFull.WellFormed ∧ repeatedRow.WellFormed ∧ withoutEmpty.WellFormed) ∧
      (locateDivergence emptyAndFull repeatedRow = none ∧ emptyAndFull.StructurallyEqual repeatedRow) ∧
      locateDivergence emptyAndFull withoutEmpty ≠ none ∧ ¬ emptyAndFull.StructurallyEqual withoutEmpty := by
  obtain ⟨constructed, decided⟩ := nothing_located_iff_equal
  have full := constructed emptyAndFull (.given _ _ _)
  have repeated := constructed repeatedRow (.given _ _ _)
  have without := constructed withoutEmpty (.given _ _ _)
  have same : emptyAndFull.StructurallyEqual repeatedRow := by decide
  have different : ¬ emptyAndFull.StructurallyEqual withoutEmpty := by decide
  exact ⟨⟨full, repeated, without⟩, ⟨(decided _ _ full repeated).1.mpr same, same⟩,
    fun nothing => different ((decided _ _ full without).1.mp nothing), different⟩

example :
    let rowless : ClassRecord := ⟨"1", none, ["m()"], .empty⟩
    locateDivergence rowless (.ofMethods "2" none [("m()", [])]) = none ∧
      ¬ rowless.StructurallyEqual (.ofMethods "2" none [("m()", [])]) := by
  decide

end ClassRecord

namespace Baselines

theorem judge_ok_iff (previous : Option ClassRecord) (record : ClassRecord)
    (goodPrevious : ∀ baseline, previous = some baseline → baseline.WellFormed) (goodRecord : record.WellFormed) :
    (judge previous record).isOk ↔ ∀ baseline ∈ previous, baseline.StructurallyEqual record := by
  cases previous with
  | none => simp [judge, Except.isOk, Except.toBool]
  | some baseline =>
      have decided := ClassRecord.locate_none_iff baseline record (goodPrevious baseline rfl) goodRecord
      cases located : ClassRecord.locateDivergence baseline record with
      | none => simpa [judge, located, Except.isOk, Except.toBool] using decided.mp located
      | some attribution =>
          have different : ¬ baseline.StructurallyEqual record := fun same => by
            simp [decided.mpr same] at located
          simpa [judge, located, Except.isOk, Except.toBool] using different

end Baselines

end BytecodeParity
