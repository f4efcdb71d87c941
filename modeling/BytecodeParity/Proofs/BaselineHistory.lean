import Mathlib.Data.Finset.Card
import BytecodeParity.Proofs.RollingBaseline

/-!
What the rolling baselines hold after a sequence of records: of every class the record that was
offered last, whatever was answered to it. So the answer to a record depends on that record and on
the one before it in its class, and on nothing else that was offered.
-/

set_option autoImplicit false

namespace BytecodeParity.Baselines

open ClassRecord

inductive Answered (record : ClassRecord) : Option ClassRecord → Except Divergence Accepted → Prop
  | first : Answered record none (.ok .baseline)
  | unchanged (previous : ClassRecord) (equal : previous.StructurallyEqual record) :
      Answered record (some previous) (.ok (.compared previous.version))
  | changed (previous : ClassRecord) (divergence : Divergence) (different : ¬ previous.StructurallyEqual record)
      (ofClass : divergence.className = record.className) (since : divergence.baselineVersion = previous.version)
      (found : divergence.version = record.version) : Answered record (some previous) (.error divergence)

theorem judge_answered (previous : Option ClassRecord) (record : ClassRecord)
    (goodPrevious : ∀ baseline, previous = some baseline → baseline.WellFormed) (goodRecord : record.WellFormed) :
    Answered record previous (judge previous record) := by
  cases previous with
  | none => exact .first
  | some baseline =>
      have decided := locate_none_iff baseline record (goodPrevious baseline rfl) goodRecord
      rw [judge]
      cases located : locateDivergence baseline record with
      | none => exact .unchanged baseline (decided.mp located)
      | some attribution =>
          have different : ¬ baseline.StructurallyEqual record := fun equal => by
            simp [decided.mpr equal] at located
          exact .changed baseline (.between baseline record attribution) different rfl rfl rfl

theorem accumulate_all_append (baselines : Baselines) (before after : List ClassRecord) :
    baselines.accumulateAll (before ++ after) =
      ((baselines.accumulateAll before).1 ++ ((baselines.accumulateAll before).2.accumulateAll after).1,
        ((baselines.accumulateAll before).2.accumulateAll after).2) := by
  induction before generalizing baselines with
  | nil => rfl
  | cons record before ih => simp only [List.cons_append, accumulateAll, ih]

theorem accumulate_all_length (baselines : Baselines) (records : List ClassRecord) :
    (baselines.accumulateAll records).1.length = records.length := by
  induction records generalizing baselines with
  | nil => rfl
  | cons record records ih => simp only [accumulateAll, List.length_cons, ih]

-- The baselines are put forward by every record, also by one that is answered with a divergence.
theorem accumulate_all_find (baselines : Baselines) (records : List ClassRecord) (className : Option String) :
    (baselines.accumulateAll records).2.find? className =
      (ofClass className records).getLast?.or (baselines.find? className) := by
  induction records generalizing baselines with
  | nil => rfl
  | cons record records ih =>
      simp only [accumulateAll, accumulate]
      rw [ih, find_put, of_class_cons]
      by_cases own : record.className = className
      · subst own
        rw [if_pos rfl, if_pos rfl, List.getLast?_cons]
        cases (ofClass record.className records).getLast? <;> rfl
      · rw [if_neg own, if_neg (Ne.symm own)]

theorem accumulate_all_answer (baselines : Baselines) (before after : List ClassRecord) (record : ClassRecord) :
    (baselines.accumulateAll (before ++ record :: after)).1[before.length]? =
      some (judge ((baselines.accumulateAll before).2.find? record.className) record) := by
  have answered := accumulate_all_length baselines before
  rw [accumulate_all_append, List.getElem?_append_right (Nat.le_of_eq answered), answered, Nat.sub_self]
  rfl

def classes (baselines : Baselines) : List (Option String) :=
  baselines.records.map (·.className)

theorem put_classes (baselines : Baselines) (record : ClassRecord) :
    (baselines.put record).classes =
      baselines.classes.filter (fun other => other ≠ record.className) ++ [record.className] := by
  rw [classes, put, List.map_append, classes, List.filter_map]
  rfl

theorem put_classes_nodup (baselines : Baselines) (record : ClassRecord) (distinct : baselines.classes.Nodup) :
    (baselines.put record).classes.Nodup := by
  rw [put_classes]
  refine List.nodup_append.mpr ⟨distinct.filter _, by simp, ?_⟩
  intro other kept last lastMember same
  rw [List.mem_singleton.mp lastMember] at same
  simpa [same] using (List.mem_filter.mp kept).2

theorem mem_put_classes (baselines : Baselines) (record : ClassRecord) (className : Option String) :
    className ∈ (baselines.put record).classes ↔ className = record.className ∨ className ∈ baselines.classes := by
  rw [put_classes, List.mem_append, List.mem_filter, List.mem_singleton]
  by_cases own : className = record.className <;> simp [own]

theorem accumulate_all_classes_nodup (baselines : Baselines) (records : List ClassRecord)
    (distinct : baselines.classes.Nodup) : (baselines.accumulateAll records).2.classes.Nodup := by
  induction records generalizing baselines with
  | nil => exact distinct
  | cons record records ih => exact ih _ (put_classes_nodup baselines record distinct)

theorem mem_accumulate_all_classes (baselines : Baselines) (records : List ClassRecord) (className : Option String) :
    className ∈ (baselines.accumulateAll records).2.classes ↔
      className ∈ records.map (·.className) ∨ className ∈ baselines.classes := by
  induction records generalizing baselines with
  | nil => simp [accumulateAll]
  | cons record records ih =>
      simp only [accumulateAll, accumulate]
      rw [ih, mem_put_classes, List.map_cons, List.mem_cons]
      tauto

theorem accumulate_all_size (records : List ClassRecord) :
    (empty.accumulateAll records).2.size = (records.map (·.className)).toFinset.card := by
  have distinct := accumulate_all_classes_nodup empty records .nil
  have sized : (empty.accumulateAll records).2.size = (empty.accumulateAll records).2.classes.length := by
    rw [classes, List.length_map, size]
  rw [sized, ← List.toFinset_card_of_nodup distinct]
  congr 1
  ext className
  rw [List.mem_toFinset, List.mem_toFinset, mem_accumulate_all_classes]
  simp [classes, empty]

theorem rolling_baselines (records : List ClassRecord) (constructed : ∀ record ∈ records, Constructed record) :
    (∀ className, (empty.accumulateAll records).2.find? className = (ofClass className records).getLast?) ∧
      (empty.accumulateAll records).2.size = (records.map (·.className)).toFinset.card ∧
      (empty.accumulateAll records).1.length = records.length ∧
      ∀ before record after, records = before ++ record :: after →
        (empty.accumulateAll records).1[before.length]? =
            some (judge (ofClass record.className before).getLast? record) ∧
          Answered record (ofClass record.className before).getLast?
            (judge (ofClass record.className before).getLast? record) := by
  have last : ∀ offered className,
      (empty.accumulateAll offered).2.find? className = (ofClass className offered).getLast? := by
    intro offered className
    rw [accumulate_all_find]
    exact Option.or_none
  refine ⟨last records, accumulate_all_size records, accumulate_all_length empty records, ?_⟩
  rintro before record after rfl
  have good : ∀ other ∈ before ++ record :: after, other.WellFormed := fun other member =>
    constructed_well_formed other (constructed other member)
  refine ⟨by rw [accumulate_all_answer, last], judge_answered _ record ?_ (good record (by simp))⟩
  intro baseline found
  have earlier := (List.mem_filter.mp (List.mem_of_getLast? found)).1
  exact good baseline (List.mem_append_left _ earlier)

def interleaved : List ClassRecord :=
  [.ofMethods "1" (some "A") [("m()", ["X"])], .ofMethods "1" none [("m()", [])],
    .ofMethods "2" (some "A") [("m()", ["Y"])], .ofMethods "1" (some "B") [("m()", ["X"])],
    .ofMethods "2" none [("m()", [])], .ofMethods "3" (some "A") [("m()", ["Y"])],
    .ofMethods "4" (some "A") [("m()", ["X"])]]

theorem rolling_baselines_interleaved :
    (∀ record ∈ interleaved, Constructed record) ∧
      (empty.accumulateAll interleaved).1.map Except.isOk = [true, true, false, true, true, true, false] ∧
      (empty.accumulateAll interleaved).2.find? (some "A") = some (.ofMethods "4" (some "A") [("m()", ["X"])]) ∧
      (empty.accumulateAll interleaved).2.find? (some "C") = none ∧
      (empty.accumulateAll interleaved).2.size = 3 ∧
      (empty.accumulateAll interleaved).1[5]? = some (.ok (.compared "2")) ∧
      ∃ answer, (empty.accumulateAll interleaved).1[6]? = some answer ∧
        Answered (.ofMethods "4" (some "A") [("m()", ["X"])]) (some (.ofMethods "3" (some "A") [("m()", ["Y"])]))
          answer := by
  have constructed : ∀ record ∈ interleaved, Constructed record := by
    intro record member
    simp only [interleaved, List.mem_cons, List.not_mem_nil, or_false] at member
    rcases member with rfl | rfl | rfl | rfl | rfl | rfl | rfl <;> exact .given _ _ _
  obtain ⟨last, sized, _, answered⟩ := rolling_baselines interleaved constructed
  have unchanged := (answered (interleaved.take 5) _ _ rfl).1
  have changed := answered (interleaved.take 6) _ _ rfl
  refine ⟨constructed, by decide, (last (some "A")).trans (by decide), (last (some "C")).trans (by decide),
    sized.trans (by decide), unchanged.trans (by decide), ⟨_, changed.1, changed.2⟩⟩

end BytecodeParity.Baselines
