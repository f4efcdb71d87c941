import BytecodeParity.Proofs.FinalCheck
import BytecodeParity.Proofs.RecordContents

set_option autoImplicit false

namespace BytecodeParity

theorem FirstOccurrences.unique {α : Type} [BEq α] [LawfulBEq α] {names kept others : List α}
    (first : FirstOccurrences names kept) (otherFirst : FirstOccurrences names others) : kept = others := by
  have distinct : ∀ {list : List α}, FirstOccurrences names list → list.Nodup := fun isFirst =>
    isFirst.ordered.imp fun before same => (Nat.ne_of_lt before) (congrArg names.idxOf same)
  have same : kept.Perm others := by
    rw [List.perm_ext_iff_of_nodup (distinct first) (distinct otherFirst)]
    exact fun name => (first.members name).trans (otherFirst.members name).symm
  refine same.eq_of_pairwise (fun a b _ _ before after => ?_) first.ordered otherFirst.ordered
  exact absurd (Nat.lt_trans before after) (Nat.lt_irrefl _)

namespace ClassGroup

open ClassRecord

structure StablePartition (records : List ClassRecord) (groups : List ClassGroup) : Prop where
  classes : FirstOccurrences (records.map (·.className)) (groups.map (·.className))
  own : ∀ group ∈ groups, group.records = records.filter fun record => record.className = group.className

theorem class_names_of_records (records : List ClassRecord) :
    (ofRecords records).map (·.className) = (records.map (·.className)).eraseDups := by
  rw [of_records_eq, List.map_map]
  exact List.map_id _

theorem of_records_stable (records : List ClassRecord) : StablePartition records (ofRecords records) := by
  refine ⟨class_names_of_records records ▸ erase_dups_first _, fun group member => ?_⟩
  rw [of_records_eq] at member
  obtain ⟨className, _, rfl⟩ := List.mem_map.mp member
  rfl

theorem StablePartition.eq_within {records : List ClassRecord} {groups : List ClassGroup}
    (stable : StablePartition records groups) : groups = (groups.map (·.className)).map (within records) := by
  rw [List.map_map]
  refine (List.map_id groups).symm.trans (List.map_congr_left fun group member => ?_)
  rw [Function.comp_apply, within, ofClass, ← stable.own group member, id]

theorem place_records_perm (record : ClassRecord) (groups : List ClassGroup) :
    ((place record groups).flatMap (·.records)).Perm (record :: groups.flatMap (·.records)) := by
  induction groups with
  | nil => exact .refl _
  | cons group rest ih =>
      rw [place]
      split
      · simp only [List.flatMap_cons, List.append_assoc, List.singleton_append]
        exact List.perm_middle
      · simp only [List.flatMap_cons]
        exact (ih.append_left group.records).trans List.perm_middle

theorem of_records_perm (records : List ClassRecord) :
    ((ofRecords records).flatMap (·.records)).Perm records := by
  induction records using List.reverseRecOn with
  | nil => exact .refl _
  | append_singleton records record ih =>
      rw [of_records_concat]
      have placed := (place_records_perm record _).trans (ih.cons record)
      exact placed.trans (List.perm_append_singleton record records).symm

-- The class without a name is one of the classes, and it is not the class with the empty name.
theorem groups_partition_records (records : List ClassRecord) :
    (∀ groups, StablePartition records groups ↔ groups = ofRecords records) ∧
      ((ofRecords records).map (·.className)).Nodup ∧
      ((ofRecords records).flatMap (·.records)).Perm records ∧
      ∀ record ∈ records, ∃! group, group ∈ ofRecords records ∧ record ∈ group.records := by
  have stable := of_records_stable records
  have distinct : ((ofRecords records).map (·.className)).Nodup :=
    class_names_of_records records ▸ erase_dups_nodup _
  have classOf : ∀ group ∈ ofRecords records, ∀ record ∈ group.records, record.className = group.className := by
    intro group isGroup record member
    rw [stable.own group isGroup] at member
    exact of_decide_eq_true (List.mem_filter.mp member).2
  refine ⟨fun groups => ⟨fun isStable => ?_, fun same => same ▸ stable⟩, distinct, of_records_perm records,
    fun record member => ?_⟩
  · rw [isStable.eq_within, stable.eq_within, isStable.classes.unique stable.classes]
  · obtain ⟨group, isGroup, within⟩ := List.mem_flatMap.mp ((of_records_perm records).mem_iff.mpr member)
    refine ⟨group, ⟨isGroup, within⟩, ?_⟩
    rintro other ⟨isOther, otherWithin⟩
    have same : other.className = group.className :=
      (classOf other isOther record otherWithin).symm.trans (classOf group isGroup record within)
    exact List.inj_on_of_nodup_map distinct isOther isGroup same

def mixedClasses : List ClassRecord :=
  [.ofMethods "1" (some "B") [("m()", ["X"])], .ofMethods "1" none [], .ofMethods "1" (some "") [],
    .ofMethods "2" (some "B") [("m()", ["Y"])], .ofMethods "2" none [], .ofMethods "2" none []]

theorem groups_partition_records_mixed :
    (ofRecords mixedClasses).map (·.className) = [some "B", none, some ""] ∧
      StablePartition mixedClasses
        [⟨some "B", [.ofMethods "1" (some "B") [("m()", ["X"])], .ofMethods "2" (some "B") [("m()", ["Y"])]]⟩,
          ⟨none, [.ofMethods "1" none [], .ofMethods "2" none [], .ofMethods "2" none []]⟩,
          ⟨some "", [.ofMethods "1" (some "") []]⟩] ∧
      ∃! group, group ∈ ofRecords mixedClasses ∧ ClassRecord.ofMethods "2" none [] ∈ group.records := by
  obtain ⟨exact, _, _, once⟩ := groups_partition_records mixedClasses
  exact ⟨by decide, (exact _).mpr (by decide), once _ (by decide)⟩

end ClassGroup

end BytecodeParity
