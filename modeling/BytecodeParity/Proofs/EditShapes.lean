import Mathlib.Data.List.Nodup
import Mathlib.Data.List.Perm.Basic
import BytecodeParity.Proofs.Attribution

/-!
Attribution by the shape of an edit. When one record comes from the other by changing symbols, by
removing, inserting or reordering methods and by nothing else, the first difference is the first
place of the edit, and that decides which method is blamed.
-/

set_option autoImplicit false

namespace BytecodeParity

theorem filter_of_sublist {α : Type} [DecidableEq α] (whole part : List α) (distinct : whole.Nodup)
    (kept : part.Sublist whole) : whole.filter (fun item => item ∈ part) = part := by
  have same : (whole.filter fun item => item ∈ part).Perm part := by
    apply (List.perm_ext_iff_of_nodup (distinct.filter _) (distinct.sublist kept)).mpr
    intro item
    simpa using fun member => kept.subset member
  exact (List.Nodup.perm_iff_eq_of_sublist distinct List.filter_sublist kept).mp same

theorem first_left_out {α : Type} [DecidableEq α] (whole part : List α) (distinct : whole.Nodup)
    (kept : part.Sublist whole) (proper : part ≠ whole) :
    ∃ shared missing wholeRest partRest, whole.find? (fun item => item ∉ part) = some missing ∧
      whole = shared ++ missing :: wholeRest ∧ part = shared ++ partRest ∧ missing ∉ part := by
  have whatRemains := filter_of_sublist whole part distinct kept
  have left : (whole.find? fun item => item ∉ part).isSome := by
    rw [List.find?_isSome]
    by_contra nothing
    refine proper (whatRemains.symm.trans (List.filter_eq_self.mpr fun item member => ?_))
    by_contra absent
    exact nothing ⟨item, member, by simpa using absent⟩
  obtain ⟨missing, first⟩ := Option.isSome_iff_exists.mp left
  obtain ⟨absent, shared, rest, parts, before⟩ := List.find?_eq_some_iff_append.mp first
  have allShared : shared.filter (fun item => item ∈ part) = shared :=
    List.filter_eq_self.mpr fun item member => by simpa using before item member
  have behind : part = shared ++ (missing :: rest).filter fun item => item ∈ part := by
    rw [parts, List.filter_append, allShared] at whatRemains
    exact whatRemains.symm
  exact ⟨shared, missing, rest, _, first, parts, behind, by simpa using absent⟩

theorem first_out_of_order {α : Type} (a b : List α) (same : a.Perm b) (different : a ≠ b) :
    ∃ shared x y aRest bRest, a = shared ++ x :: aRest ∧ b = shared ++ y :: bRest ∧ x ≠ y := by
  classical
  induction a generalizing b with
  | nil => exact absurd same.nil_eq different
  | cons x aRest ih =>
      cases b with
      | nil => exact absurd same.eq_nil (List.cons_ne_nil _ _)
      | cons y bRest =>
          by_cases equal : x = y
          · subst equal
            obtain ⟨shared, p, q, restP, restQ, equalA, equalB, apart⟩ :=
              ih bRest ((List.perm_cons x).mp same) fun equal => different (congrArg _ equal)
            exact ⟨x :: shared, p, q, restP, restQ, congrArg _ equalA, congrArg _ equalB, apart⟩
          · exact ⟨[], x, y, aRest, bRest, rfl, rfl, equal⟩

namespace ClassRecord

structure Shortens (part whole : ClassRecord) : Prop where
  order : part.methods.Sublist whole.methods
  proper : part.methods ≠ whole.methods
  symbols : ∀ method ∈ part.methods, part.implementation? method = whole.implementation? method

structure Reorders (record baseline : ClassRecord) : Prop where
  order : record.methods.Perm baseline.methods
  moved : record.methods ≠ baseline.methods
  symbols : ∀ method ∈ record.methods, record.implementation? method = baseline.implementation? method

instance (record : ClassRecord) (method symbol : String) : Decidable (record.RefersTo method symbol) :=
  decidable_of_iff _ (refers_to_iff record method symbol).symm

theorem row_of_declared (record : ClassRecord) (good : record.WellFormed) (method : String)
    (declared : method ∈ record.methods) : ∃ symbols, record.implementation? method = some symbols :=
  Option.isSome_iff_exists.mp ((SymbolTable.find_is_some_iff _ _).mpr ((good.2 method).mpr declared))

theorem owner_of_eq_find (record : ClassRecord) (symbol : String) :
    record.ownerOf? symbol = record.methods.find? fun method => record.RefersTo method symbol := by
  rw [ownerOf?]
  congr 1
  funext method
  rw [Bool.eq_iff_iff, List.contains_iff_mem, decide_eq_true_iff, refers_to_iff]

section Shapes

variable {baseline record : ClassRecord}

theorem changed_attributed (goodBaseline : baseline.WellFormed) (goodRecord : record.WellFormed)
    (methods : baseline.methods = record.methods)
    (changed : ∃ method ∈ baseline.methods, baseline.implementation? method ≠ record.implementation? method) :
    ∃ method, (baseline.methods.find? fun method =>
        baseline.implementation? method ≠ record.implementation? method) = some method ∧
      locateDivergence baseline record = some (.known method) := by
  have present : (baseline.methods.find? fun method =>
      baseline.implementation? method ≠ record.implementation? method).isSome := by
    simpa [List.find?_isSome] using changed
  obtain ⟨method, first⟩ := Option.isSome_iff_exists.mp present
  obtain ⟨differ, shared, rest, parts, before⟩ := List.find?_eq_some_iff_append.mp first
  have member : method ∈ baseline.methods := List.mem_of_find?_eq_some first
  obtain ⟨old, oldRow⟩ := row_of_declared baseline goodBaseline method member
  obtain ⟨new, newRow⟩ := row_of_declared record goodRecord method (methods ▸ member)
  have disagree : ¬ AgreeOn baseline record method := by
    simpa [AgreeOn, oldRow, newRow] using differ
  refine ⟨method, first, (located_iff_departs _ _ _).mpr ⟨shared, method :: rest, method :: rest, ?_, ?_⟩⟩
  · refine ⟨parts, methods ▸ parts, fun signature member => ?_⟩
    have same : baseline.implementation? signature = record.implementation? signature := by
      simpa using before signature member
    rw [AgreeOn, same]
  · exact .symbols method rest rest disagree

theorem removed_attributed (goodBaseline : baseline.WellFormed) (goodRecord : record.WellFormed)
    (shortens : Shortens record baseline) :
    ∃ removed, (baseline.methods.find? fun method => method ∉ record.methods) = some removed ∧
      locateDivergence baseline record = some (.known removed) := by
  obtain ⟨shared, removed, baselineRest, recordRest, first, partsBaseline, partsRecord, gone⟩ :=
    first_left_out _ _ goodBaseline.1 shortens.order shortens.proper
  have differ : (removed :: baselineRest).head? ≠ recordRest.head? := by
    intro same
    have next : removed ∈ recordRest := List.mem_of_head? same.symm
    exact gone (partsRecord ▸ List.mem_append_right _ next)
  have parts : Parts baseline record shared (removed :: baselineRest) recordRest := by
    refine ⟨partsBaseline, partsRecord, fun signature member => ?_⟩
    rw [AgreeOn, shortens.symbols signature (partsRecord ▸ List.mem_append_left _ member)]
  have undeclared := Bool.eq_false_iff.mpr (mt (declares_iff record goodRecord removed).mp gone)
  refine ⟨removed, first, (located_iff_departs _ _ _).mpr ⟨shared, _, _, parts, ?_⟩⟩
  rw [← mismatch_removed removed undeclared]
  exact .signatures _ _ differ

theorem owner_of_shortened (goodRecord : record.WellFormed) (shortens : Shortens baseline record) (symbol : String) :
    (record.ownerOf? symbol).or (baseline.ownerOf? symbol) = record.ownerOf? symbol := by
  cases inRecord : record.ownerOf? symbol with
  | some owner => rfl
  | none =>
      rw [Option.none_or, Option.eq_none_iff_forall_ne_some]
      intro owner inBaseline
      obtain ⟨declared, symbols, row, mentioned⟩ := owner_of_refers baseline owner symbol inBaseline
      rw [shortens.symbols owner declared] at row
      exact owner_of_none record goodRecord symbol inRecord owner ⟨symbols, row, mentioned⟩

theorem inserted_attributed (goodBaseline : baseline.WellFormed) (goodRecord : record.WellFormed)
    (shortens : Shortens baseline record) :
    ∃ added, (record.methods.find? fun method => method ∉ baseline.methods) = some added ∧
      locateDivergence baseline record =
        some ((record.methods.find? fun method => record.RefersTo method added).elim .unknown .known) := by
  obtain ⟨shared, added, recordRest, baselineRest, first, partsRecord, partsBaseline, new⟩ :=
    first_left_out _ _ goodRecord.1 shortens.order shortens.proper
  have within : ∀ signature ∈ baselineRest.head?, signature ∈ baseline.methods := fun signature next =>
    partsBaseline ▸ List.mem_append_right _ (List.mem_of_head? next)
  have differ : baselineRest.head? ≠ (added :: recordRest).head? := fun same => new (within added same)
  have parts : Parts baseline record shared baselineRest (added :: recordRest) := by
    refine ⟨partsBaseline, partsRecord, fun signature member => ?_⟩
    rw [AgreeOn, shortens.symbols signature (partsBaseline ▸ List.mem_append_left _ member)]
  have kept : ∀ signature ∈ baselineRest.head?, record.declares signature := fun signature next =>
    (declares_iff record goodRecord signature).mpr (shortens.order.subset (within signature next))
  have undeclared := Bool.eq_false_iff.mpr (mt (declares_iff baseline goodBaseline added).mp new)
  have departs : Departs baseline record _ _ _ := .signatures _ _ differ
  rw [mismatch_kept kept, List.head?_cons, mismatch_added added undeclared,
    owner_of_shortened goodRecord shortens, owner_of_eq_find] at departs
  exact ⟨added, first, (located_iff_departs _ _ _).mpr ⟨shared, _, _, parts, departs⟩⟩

theorem reordered_attributed (goodBaseline : baseline.WellFormed) (goodRecord : record.WellFormed)
    (reorders : Reorders record baseline) :
    ∃ (position : Nat) (moved : String), record.methods[position]? = some moved ∧
      baseline.methods[position]? ≠ some moved ∧
      (∀ earlier < position, baseline.methods[earlier]? = record.methods[earlier]?) ∧
      locateDivergence baseline record = some (.known moved) := by
  obtain ⟨shared, moved, wanted, recordRest, baselineRest, partsRecord, partsBaseline, apart⟩ :=
    first_out_of_order _ _ reorders.order reorders.moved
  have parts : Parts baseline record shared (wanted :: baselineRest) (moved :: recordRest) := by
    refine ⟨partsBaseline, partsRecord, fun signature member => ?_⟩
    rw [AgreeOn, reorders.symbols signature (partsRecord ▸ List.mem_append_left _ member)]
  have differ : (wanted :: baselineRest).head? ≠ (moved :: recordRest).head? := by simpa using apart.symm
  have wantedKept : wanted ∈ record.methods :=
    reorders.order.mem_iff.mpr (List.mem_of_getElem? parts.next_baseline)
  have movedKnown : moved ∈ baseline.methods :=
    reorders.order.mem_iff.mp (List.mem_of_getElem? parts.next_record)
  have kept : ∀ signature ∈ (wanted :: baselineRest).head?, record.declares signature := by
    intro signature next
    cases next
    exact (declares_iff record goodRecord wanted).mpr wantedKept
  have departs : Departs baseline record _ _ _ := .signatures _ _ differ
  rw [mismatch_kept kept, List.head?_cons,
    mismatch_moved moved ((declares_iff baseline goodBaseline moved).mpr movedKnown)] at departs
  refine ⟨shared.length, moved, parts.next_record, ?_, fun earlier below => ?_,
    (located_iff_departs _ _ _).mpr ⟨shared, _, _, parts, departs⟩⟩
  · rw [parts.next_baseline]
    simpa using apart.symm
  · rw [partsBaseline, partsRecord, List.getElem?_append_left below, List.getElem?_append_left below]

end Shapes

-- The walk stops at one position only, and for each of these edits that position is the first one that
-- the edit touches, wherever and however often it touches the methods behind it.
theorem edits_attributed (baseline record : ClassRecord) (goodBaseline : baseline.WellFormed)
    (goodRecord : record.WellFormed) :
    (baseline.methods = record.methods →
      (∃ method ∈ baseline.methods, baseline.implementation? method ≠ record.implementation? method) →
      ∃ method, (baseline.methods.find? fun method =>
          baseline.implementation? method ≠ record.implementation? method) = some method ∧
        locateDivergence baseline record = some (.known method)) ∧
    (Shortens record baseline →
      ∃ removed, (baseline.methods.find? fun method => method ∉ record.methods) = some removed ∧
        locateDivergence baseline record = some (.known removed)) ∧
    (Shortens baseline record →
      ∃ added, (record.methods.find? fun method => method ∉ baseline.methods) = some added ∧
        locateDivergence baseline record =
          some ((record.methods.find? fun method => record.RefersTo method added).elim .unknown .known)) ∧
    (Reorders record baseline →
      ∃ (position : Nat) (moved : String), record.methods[position]? = some moved ∧
        baseline.methods[position]? ≠ some moved ∧
        (∀ earlier < position, baseline.methods[earlier]? = record.methods[earlier]?) ∧
        locateDivergence baseline record = some (.known moved)) :=
  ⟨changed_attributed goodBaseline goodRecord, removed_attributed goodBaseline goodRecord,
    inserted_attributed goodBaseline goodRecord, reordered_attributed goodBaseline goodRecord⟩

def callingMore : ClassRecord :=
  .ofMethods "2" (some "A") [("a()", ["X"]), ("b()", ["n()", "Y"]), ("c()", ["Z"])]

def callingLess : ClassRecord :=
  .ofMethods "2" (some "A") [("a()", ["X"])]

def callingTwo : ClassRecord :=
  .ofMethods "2" (some "A") [("a()", ["X"]), ("n()", []), ("o()", ["n()"]), ("b()", ["n()"]), ("c()", [])]

theorem edits_attributed_calling :
    ((∃ method ∈ calling.methods, calling.implementation? method ≠ callingMore.implementation? method) ∧
      locateDivergence calling callingMore = some (.known "b()")) ∧
    (Shortens callingLess calling ∧ locateDivergence calling callingLess = some (.known "b()")) ∧
    (Shortens calling callingTwo ∧ locateDivergence calling callingTwo = some (.known "o()")) ∧
    (Shortens calling callingOther ∧ locateDivergence calling callingOther = some .unknown) ∧
    (Reorders callingLater calling ∧ ∃ (position : Nat) (moved : String),
      callingLater.methods[position]? = some moved ∧ calling.methods[position]? ≠ some moved ∧
        locateDivergence calling callingLater = some (.known moved)) := by
  have good : calling.WellFormed := of_methods_well_formed _ _ _
  have changed : ∃ method ∈ calling.methods,
      calling.implementation? method ≠ callingMore.implementation? method := by decide
  have removed : Shortens callingLess calling := ⟨by decide, by decide, by decide⟩
  have insertedTwo : Shortens calling callingTwo := ⟨by decide, by decide, by decide⟩
  have insertedOther : Shortens calling callingOther := ⟨by decide, by decide, by decide⟩
  have reordered : Reorders callingLater calling := ⟨by decide, by decide, by decide⟩
  refine ⟨⟨changed, ?_⟩, ⟨removed, ?_⟩, ⟨insertedTwo, ?_⟩, ⟨insertedOther, ?_⟩, reordered, ?_⟩
  · obtain ⟨method, first, located⟩ :=
      (edits_attributed calling callingMore good (of_methods_well_formed _ _ _)).1 rfl changed
    cases first
    exact located
  · obtain ⟨method, first, located⟩ :=
      (edits_attributed calling callingLess good (of_methods_well_formed _ _ _)).2.1 removed
    cases first
    exact located
  · obtain ⟨added, first, located⟩ :=
      (edits_attributed calling callingTwo good (of_methods_well_formed _ _ _)).2.2.1 insertedTwo
    cases first
    exact located
  · obtain ⟨added, first, located⟩ :=
      (edits_attributed calling callingOther good (of_methods_well_formed _ _ _)).2.2.1 insertedOther
    cases first
    exact located
  · obtain ⟨position, moved, is, was, _, located⟩ :=
      (edits_attributed calling callingLater good (of_methods_well_formed _ _ _)).2.2.2 reordered
    exact ⟨position, moved, is, was, located⟩

end ClassRecord

end BytecodeParity
