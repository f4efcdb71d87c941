import Mathlib.Data.List.Chain
import BytecodeParity.Proofs.FirstDifference

set_option autoImplicit false

namespace BytecodeParity

namespace ClassRecord

def ofClass (className : Option String) (records : List ClassRecord) : List ClassRecord :=
  records.filter fun record => record.className = className

def Steady (records : List ClassRecord) : Prop :=
  records.IsChain StructurallyEqual

theorem of_class_cons (className : Option String) (record : ClassRecord) (records : List ClassRecord) :
    ofClass className (record :: records) =
      if record.className = className then record :: ofClass className records else ofClass className records := by
  by_cases same : record.className = className <;> simp [ofClass, same]

theorem of_class_concat (className : Option String) (records : List ClassRecord) (record : ClassRecord) :
    ofClass className (records ++ [record]) =
      if record.className = className then ofClass className records ++ [record] else ofClass className records := by
  by_cases same : record.className = className <;> simp [ofClass, same]

theorem of_class_unknown (className : Option String) (records : List ClassRecord)
    (unknown : className ∉ records.map (·.className)) : ofClass className records = [] := by
  refine List.filter_eq_nil_iff.mpr fun record member => ?_
  simp only [decide_eq_true_eq]
  exact fun same => unknown (List.mem_map.mpr ⟨record, member, same⟩)

theorem steady_concat_iff (records : List ClassRecord) (record : ClassRecord) :
    Steady (records ++ [record]) ↔
      Steady records ∧ ∀ baseline ∈ records.getLast?, baseline.StructurallyEqual record := by
  simp [Steady, List.isChain_append]

theorem steady_after_iff (baseline : Option ClassRecord) (record : ClassRecord) (records : List ClassRecord) :
    Steady (baseline.toList ++ record :: records) ↔
      (∀ previous ∈ baseline, previous.StructurallyEqual record) ∧ Steady (record :: records) := by
  cases baseline <;> simp [Steady]

-- Structural equality is transitive, so equal neighbours make all records of the sequence equal.
theorem steady_iff_pairwise (records : List ClassRecord) :
    Steady records ↔ ∀ a ∈ records, ∀ b ∈ records, a.StructurallyEqual b := by
  rw [Steady, List.isChain_iff_pairwise]
  constructor
  · intro ordered a memberA b memberB
    exact ordered.forall_of_forall (fun record _ => structurally_equal_refl record) memberA memberB
  · intro all
    exact List.pairwise_iff_forall_sublist.mpr fun pair =>
      all _ (pair.subset (by simp)) _ (pair.subset (by simp))

end ClassRecord

namespace Baselines

open ClassRecord

def accumulateAll (baselines : Baselines) : List ClassRecord → List (Except Divergence Accepted) × Baselines
  | [] => ([], baselines)
  | record :: records =>
      let (answer, next) := baselines.accumulate record
      let (answers, last) := next.accumulateAll records
      (answer :: answers, last)

theorem find_removed (records : List ClassRecord) (removed : Option String) :
    (records.filter fun other => other.className ≠ removed).find? (fun other => other.className = removed) = none := by
  rw [List.find?_eq_none]
  intro other member
  simpa using (List.mem_filter.mp member).2

theorem find_kept (records : List ClassRecord) (removed className : Option String) (different : className ≠ removed) :
    (records.filter fun other => other.className ≠ removed).find? (fun other => other.className = className) =
      records.find? fun other => other.className = className := by
  rw [List.find?_filter]
  congr 1
  funext other
  by_cases hit : other.className = className <;> simp [hit, different]

theorem find_put (baselines : Baselines) (record : ClassRecord) (className : Option String) :
    (baselines.put record).find? className =
      if className = record.className then some record else baselines.find? className := by
  rw [put, find?, List.find?_append]
  by_cases same : className = record.className
  · rw [same, find_removed, if_pos rfl]
    simp
  · rw [find_kept _ _ _ same, if_neg same]
    simp [find?, Ne.symm same]

theorem accumulate_all_ok_iff (baselines : Baselines) (records : List ClassRecord)
    (goodBaselines : ∀ className baseline, baselines.find? className = some baseline → baseline.WellFormed)
    (good : ∀ record ∈ records, record.WellFormed) :
    (∀ answer ∈ (baselines.accumulateAll records).1, answer.isOk) ↔
      ∀ className, Steady ((baselines.find? className).toList ++ ofClass className records) := by
  induction records generalizing baselines with
  | nil =>
      simp only [accumulateAll, ofClass, List.filter_nil, List.append_nil]
      constructor
      · intro _ className
        cases baselines.find? className <;> simp [Steady]
      · simp
  | cons record records ih =>
      -- Whatever the answer is, the record takes the place of its class's baseline, so the rest starts from there.
      have goodRecord := good record (by simp)
      have goodNext : ∀ className baseline, (baselines.put record).find? className = some baseline →
          baseline.WellFormed := by
        intro className baseline found
        rw [find_put] at found
        split at found
        · cases found
          exact goodRecord
        · exact goodBaselines className baseline found
      have rest := ih (baselines.put record) goodNext (fun other member => good other (by simp [member]))
      have first := judge_ok_iff (baselines.find? record.className) record
        (goodBaselines record.className) goodRecord
      simp only [accumulateAll, accumulate, List.forall_mem_cons, rest, first]
      constructor
      · rintro ⟨agrees, steady⟩ className
        have steadyClass := steady className
        rw [find_put] at steadyClass
        rw [of_class_cons]
        by_cases same : record.className = className
        · subst same
          rw [if_pos rfl, steady_after_iff]
          exact ⟨agrees, by simpa using steadyClass⟩
        · rw [if_neg same]
          simpa only [if_neg (Ne.symm same)] using steadyClass
      · intro steady
        have own := steady record.className
        rw [of_class_cons, if_pos rfl, steady_after_iff] at own
        refine ⟨own.1, fun className => ?_⟩
        rw [find_put]
        by_cases same : className = record.className
        · subst same
          simpa using own.2
        · have steadyClass := steady className
          rw [of_class_cons, if_neg (Ne.symm same)] at steadyClass
          rwa [if_neg same]

end Baselines

end BytecodeParity
