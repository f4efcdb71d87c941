import BytecodeParity.Sanity
import BytecodeParity.Proofs.RollingBaseline

set_option autoImplicit false

namespace BytecodeParity

open ClassRecord

namespace ClassGroup

def within (records : List ClassRecord) (className : Option String) : ClassGroup :=
  ⟨className, ofClass className records⟩

theorem place_absent (record : ClassRecord) (records : List ClassRecord) (classNames : List (Option String))
    (absent : record.className ∉ classNames) :
    place record (classNames.map (within records)) =
      classNames.map (within (records ++ [record])) ++ [⟨record.className, [record]⟩] := by
  induction classNames with
  | nil => rfl
  | cons className rest ih =>
      have different : record.className ≠ className := fun same => absent (by simp [same])
      have notInRest : record.className ∉ rest := fun member => absent (by simp [member])
      simp only [List.map_cons, List.cons_append, place, within, if_neg (Ne.symm different),
        of_class_concat, if_neg different]
      exact congrArg _ (ih notInRest)

theorem within_other (record : ClassRecord) (records : List ClassRecord) (classNames : List (Option String))
    (absent : record.className ∉ classNames) :
    classNames.map (within (records ++ [record])) = classNames.map (within records) := by
  apply List.map_congr_left
  intro className member
  have different : record.className ≠ className := fun same => absent (same ▸ member)
  simp only [within, of_class_concat, if_neg different]

theorem place_present (record : ClassRecord) (records : List ClassRecord) (classNames : List (Option String))
    (present : record.className ∈ classNames) (distinct : classNames.Nodup) :
    place record (classNames.map (within records)) = classNames.map (within (records ++ [record])) := by
  induction classNames with
  | nil => cases present
  | cons className rest ih =>
      obtain ⟨notInRest, restDistinct⟩ := List.nodup_cons.mp distinct
      by_cases same : record.className = className
      · subst same
        simp only [List.map_cons, place, within, of_class_concat]
        exact congrArg _ (within_other record records rest notInRest).symm
      · have inRest : record.className ∈ rest := (List.mem_cons.mp present).resolve_left same
        simp only [List.map_cons, place, within, if_neg (Ne.symm same), of_class_concat, if_neg same]
        exact congrArg _ (ih inRest restDistinct)

theorem of_records_concat (records : List ClassRecord) (record : ClassRecord) :
    ofRecords (records ++ [record]) = place record (ofRecords records) := by
  simp only [ofRecords, List.foldl_append, List.foldl_cons, List.foldl_nil]

theorem of_records_eq (records : List ClassRecord) :
    ofRecords records = (records.map (·.className)).eraseDups.map (within records) := by
  induction records using List.reverseRecOn with
  | nil => rfl
  | append_singleton records record ih =>
      rw [of_records_concat, ih, List.map_append, List.map_singleton, erase_dups_concat]
      split
      · next known =>
          exact place_present record records _ (List.mem_eraseDups.mpr (List.contains_iff_mem.mp known))
            (erase_dups_nodup _)
      · next fresh =>
          have absent : record.className ∉ (records.map (·.className)).eraseDups := fun member =>
            fresh (List.contains_iff_mem.mpr (List.mem_eraseDups.mp member))
          have noEarlier := of_class_unknown record.className records (mt List.mem_eraseDups.mpr absent)
          rw [place_absent record records _ absent, List.map_append, List.map_singleton, within, of_class_concat,
            if_pos rfl, noEarlier, List.nil_append]

theorem consistent_iff (records : List ClassRecord) : consistent records ↔ Steady records := by
  induction records with
  | nil => simp [consistent, Steady]
  | cons record rest ih =>
      cases rest with
      | nil => simp [consistent, Steady]
      | cons next rest =>
          simp only [consistent, Bool.and_eq_true, decide_eq_true_eq, ih]
          exact List.isChain_cons_cons.symm

end ClassGroup

namespace Sanity

theorem check_iff_groups (records : List ClassRecord) :
    check records ↔ ∀ group ∈ ClassGroup.ofRecords records, Steady group.records := by
  simp only [check, differing, List.isEmpty_iff, List.filter_eq_nil_iff, Bool.not_eq_true', Bool.not_eq_false,
    ClassGroup.isConsistent, ClassGroup.consistent_iff]

theorem check_iff_steady (records : List ClassRecord) :
    check records ↔ ∀ className, Steady (ofClass className records) := by
  rw [check_iff_groups, ClassGroup.of_records_eq]
  simp only [List.forall_mem_map, List.mem_eraseDups, ClassGroup.within]
  constructor
  · intro steady className
    by_cases known : className ∈ records.map (·.className)
    · obtain ⟨record, member, same⟩ := List.mem_map.mp known
      exact same ▸ steady record member
    · rw [of_class_unknown className records known]
      exact .nil
  · intro steady record _
    exact steady record.className

theorem check_iff_equal (records : List ClassRecord) :
    check records ↔ ∀ a ∈ records, ∀ b ∈ records, a.className = b.className → a.StructurallyEqual b := by
  simp only [check_iff_steady, steady_iff_pairwise, ofClass, List.mem_filter, decide_eq_true_eq]
  constructor
  · intro equal a memberA b memberB same
    exact equal b.className a ⟨memberA, same⟩ b ⟨memberB, rfl⟩
  · rintro equal className a ⟨memberA, ofClassA⟩ b ⟨memberB, ofClassB⟩
    exact equal a memberA b memberB (ofClassA.trans ofClassB.symm)

theorem within_differing_iff (records : List ClassRecord) (className : Option String) :
    ClassGroup.within records className ∈ differing records ↔
      ∃ a ∈ ofClass className records, ∃ b ∈ ofClass className records, ¬ a.StructurallyEqual b := by
  have unsteady : (ClassGroup.within records className).isConsistent = false ↔
      ∃ a ∈ ofClass className records, ∃ b ∈ ofClass className records, ¬ a.StructurallyEqual b := by
    rw [← Bool.not_eq_true, ClassGroup.isConsistent, ClassGroup.consistent_iff, steady_iff_pairwise]
    simp only [ClassGroup.within, not_forall, exists_prop]
  rw [differing, List.mem_filter, Bool.not_eq_true', unsteady, ClassGroup.of_records_eq]
  refine and_iff_right_of_imp ?_
  rintro ⟨a, memberA, -⟩
  obtain ⟨given, ofClassA⟩ := List.mem_filter.mp memberA
  refine List.mem_map_of_mem (List.mem_eraseDups.mpr (List.mem_map.mpr ⟨a, given, ?_⟩))
  exact of_decide_eq_true ofClassA

-- The check compares neighbours within groups; it finds the classes that hold two different records,
-- whatever stands between these. No record has to be well-formed.
theorem check_iff_all_pairs :
    (∀ records : List ClassRecord, check records ↔
      ∀ a ∈ records, ∀ b ∈ records, a.className = b.className → a.StructurallyEqual b) ∧
    (∀ records others : List ClassRecord, records.Perm others → check records = check others) ∧
    ∀ (records others : List ClassRecord) (className : Option String),
      (ofClass className records).Perm (ofClass className others) →
        (ClassGroup.within others className ∈ differing others ↔
          ∃ a ∈ ofClass className records, ∃ b ∈ ofClass className records, ¬ a.StructurallyEqual b) ∧
        ((∃ a ∈ ofClass className records, ∃ b ∈ ofClass className records, ¬ a.StructurallyEqual b) →
          check others = false) := by
  refine ⟨check_iff_equal, fun records others same => ?_, fun records others className same => ?_⟩
  · rw [Bool.eq_iff_iff, check_iff_equal, check_iff_equal]
    simp only [same.mem_iff]
  · have detected := within_differing_iff others className
    simp only [← same.mem_iff] at detected
    refine ⟨detected, fun different => ?_⟩
    rw [check, List.isEmpty_eq_false_iff]
    exact List.ne_nil_of_mem (detected.mpr different)

def scattered : List ClassRecord :=
  [.ofMethods "1" (some "A") [("m()", ["X"])], ⟨"1", none, ["n()", "n()"], .empty⟩,
    .ofMethods "1" (some "B") [("m()", ["Y"])], ⟨"2", some "A", ["m()"], .empty⟩,
    ⟨"2", none, ["n()", "n()"], .empty⟩]

def gathered : List ClassRecord :=
  [⟨"2", some "A", ["m()"], .empty⟩, .ofMethods "1" (some "A") [("m()", ["X"])],
    .ofMethods "7" (some "C") [("k()", [])]]

theorem check_iff_all_pairs_scattered :
    (scattered.Perm scattered.reverse ∧ check scattered = check scattered.reverse) ∧
      (ofClass (some "A") scattered).Perm (ofClass (some "A") gathered) ∧
      ClassGroup.within gathered (some "A") ∈ differing gathered ∧ check gathered = false ∧
      (differing scattered).map (·.className) = [some "A"] ∧
      ∀ a ∈ scattered.drop 1, ∀ b ∈ scattered.drop 1, a.className = b.className → a.StructurallyEqual b := by
  obtain ⟨exact, reordered, detected⟩ := check_iff_all_pairs
  have backwards : scattered.Perm scattered.reverse := (List.reverse_perm scattered).symm
  have own : (ofClass (some "A") scattered).Perm (ofClass (some "A") gathered) := by decide
  have different : ∃ a ∈ ofClass (some "A") scattered, ∃ b ∈ ofClass (some "A") scattered,
      ¬ a.StructurallyEqual b := by decide
  obtain ⟨named, fails⟩ := detected scattered gathered (some "A") own
  exact ⟨⟨backwards, reordered _ _ backwards⟩, own, named.mpr different, fails different, by decide,
    (exact (scattered.drop 1)).mp (by decide)⟩

-- The comparison walks positions and reads an absent row as an empty one, the check compares whole
-- tables; on records that were constructed the two refuse the same sequences.
theorem all_accepted_iff_check (records : List ClassRecord)
    (constructed : ∀ record ∈ records, Constructed record) :
    (∀ answer ∈ (Baselines.empty.accumulateAll records).1, answer.isOk) ↔ check records := by
  have good : ∀ record ∈ records, record.WellFormed := fun record member =>
    constructed_well_formed record (constructed record member)
  have noBaselines : ∀ className baseline, Baselines.empty.find? className = some baseline →
      baseline.WellFormed := by
    intro className baseline found
    cases found
  rw [Baselines.accumulate_all_ok_iff Baselines.empty records noBaselines good, check_iff_steady]
  exact Iff.rfl

def returningClass : List ClassRecord :=
  [.ofMethods "1" (some "A") [("m()", ["X"])], .ofMethods "1" none [("m()", [])],
    .ofMethods "2" (some "A") [("n()", []), ("m()", ["X"])], .ofMethods "2" none [("m()", [])],
    .ofMethods "3" (some "A") [("m()", ["X"])]]

theorem all_accepted_iff_check_returning_class :
    (∀ record ∈ returningClass, Constructed record) ∧
      ((∀ answer ∈ (Baselines.empty.accumulateAll returningClass).1, answer.isOk) ↔ check returningClass) ∧
      check returningClass = false := by
  have constructed : ∀ record ∈ returningClass, Constructed record := by
    intro record member
    simp only [returningClass, List.mem_cons, List.not_mem_nil, or_false] at member
    rcases member with rfl | rfl | rfl | rfl | rfl <;> exact .given _ _ _
  exact ⟨constructed, all_accepted_iff_check returningClass constructed, by decide⟩

end Sanity

end BytecodeParity
