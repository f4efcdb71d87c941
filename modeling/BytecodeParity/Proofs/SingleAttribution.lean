import BytecodeParity.Proofs.Attribution
import BytecodeParity.Proofs.SingleRecords

set_option autoImplicit false

namespace BytecodeParity

namespace ClassRecord

def FromSingle (record : ClassRecord) : Prop :=
  ∃ namespacePrefix version disassembly,
    (Disassembly.buildSingle namespacePrefix version disassembly).outcome = .ok record

def Ascending (record : ClassRecord) : Prop :=
  record.methods.Pairwise (· < ·)

theorem from_single_well_formed (record : ClassRecord) (single : record.FromSingle) : record.WellFormed := by
  obtain ⟨namespacePrefix, version, disassembly, built⟩ := single
  exact constructed_well_formed record (.single namespacePrefix version disassembly record built)

theorem from_single_ascending (record : ClassRecord) (single : record.FromSingle) : record.Ascending := by
  obtain ⟨namespacePrefix, version, disassembly, built⟩ := single
  obtain ⟨collected, outcome, rfl⟩ := (Disassembly.build_single_ok_iff _ _ _ _).mp built
  obtain ⟨_, rfl⟩ := (Disassembly.build_ok_iff _ _ _ _ _ _ _).mp outcome
  exact sort_methods_increasing _ (of_methods_well_formed version none _).1

inductive Substantive (baseline record : ClassRecord) (method : String) : Prop
  | removed (was : method ∈ baseline.methods) (gone : method ∉ record.methods)
  | changed (was : method ∈ baseline.methods) (is : method ∈ record.methods)
      (differ : baseline.implementation? method ≠ record.implementation? method)
  | mentions (added : String) (new : added ∈ record.methods) (unknown : added ∉ baseline.methods)
      (refers : record.RefersTo method added ∨ baseline.RefersTo method added)

section Ascending

variable {shared rest : List String} {next : String}

theorem next_not_shared (ascending : (shared ++ next :: rest).Pairwise (· < ·)) : next ∉ shared := by
  intro again
  exact lt_irrefl next ((List.pairwise_append.mp ascending).2.2 next again next List.mem_cons_self)

theorem next_least (ascending : (shared ++ next :: rest).Pairwise (· < ·)) (method : String)
    (member : method ∈ shared ++ next :: rest) (unshared : method ∉ shared) : next ≤ method := by
  rcases List.mem_cons.mp ((List.mem_append.mp member).resolve_left unshared) with same | later
  · exact same.ge
  · exact (List.rel_of_pairwise_cons (List.pairwise_append.mp ascending).2.1 later).le

end Ascending

section Departure

variable {baseline record : ClassRecord} {shared expected actual : List String}

-- Two next methods that both records had would each stand before the other one.
theorem next_removed_or_added (parts : Parts baseline record shared expected actual)
    (ascendingBaseline : baseline.Ascending) (ascendingRecord : record.Ascending)
    (differ : expected.head? ≠ actual.head?) :
    (∃ method ∈ expected.head?, method ∉ record.methods) ∨ ∀ method ∈ actual.head?, method ∉ baseline.methods := by
  rw [Ascending, parts.ofBaseline] at ascendingBaseline
  rw [Ascending, parts.ofRecord] at ascendingRecord
  rw [parts.ofBaseline, parts.ofRecord]
  cases actual with
  | nil => exact .inr (by simp)
  | cons found actualRest =>
      have unshared := next_not_shared ascendingRecord
      cases expected with
      | nil => exact .inr (by simpa using unshared)
      | cons wanted expectedRest =>
          have different : wanted ≠ found := by simpa using differ
          by_cases gone : wanted ∈ shared ++ found :: actualRest
          · refine .inr fun method next known => different ?_
            obtain rfl : found = method := by simpa using next
            have after := next_least ascendingBaseline found known unshared
            have before := next_least ascendingRecord wanted gone (next_not_shared ascendingBaseline)
            exact le_antisymm after before
          · exact .inl ⟨wanted, rfl, gone⟩

theorem added_substantive (added : String) (new : added ∈ record.methods) (unknown : added ∉ baseline.methods)
    (method : String)
    (blamed : ((record.ownerOf? added).or (baseline.ownerOf? added)).elim Attribution.unknown .known = .known method) :
    Substantive baseline record method := by
  have owner : (record.ownerOf? added).or (baseline.ownerOf? added) = some method := by
    cases found : (record.ownerOf? added).or (baseline.ownerOf? added) with
    | none =>
        rw [found] at blamed
        cases blamed
    | some owner =>
        rw [found] at blamed
        exact congrArg some (Attribution.known.inj blamed)
  rcases Option.or_eq_some_iff.mp owner with inRecord | ⟨_, inBaseline⟩
  · exact .mentions added new unknown (.inl (owner_of_refers record method added inRecord).2)
  · exact .mentions added new unknown (.inr (owner_of_refers baseline method added inBaseline).2)

theorem mismatch_substantive (goodBaseline : baseline.WellFormed) (goodRecord : record.WellFormed)
    (parts : Parts baseline record shared expected actual) (ascendingBaseline : baseline.Ascending)
    (ascendingRecord : record.Ascending) (differ : expected.head? ≠ actual.head?) (method : String)
    (blamed : attributeMismatch baseline record expected.head? actual.head? = .known method) :
    Substantive baseline record method := by
  by_cases kept : ∀ signature ∈ expected.head?, record.declares signature
  · have added : ∀ signature ∈ actual.head?, signature ∉ baseline.methods :=
      (next_removed_or_added parts ascendingBaseline ascendingRecord differ).resolve_left
        fun ⟨wanted, next, gone⟩ => gone ((declares_iff record goodRecord wanted).mp (kept wanted next))
    rw [mismatch_kept kept] at blamed
    cases found : actual.head? with
    | none =>
        rw [found] at blamed
        cases blamed
    | some signature =>
        have unknown := added signature found
        have undeclared := Bool.eq_false_iff.mpr (mt (declares_iff baseline goodBaseline signature).mp unknown)
        rw [found, mismatch_added signature undeclared] at blamed
        have new : signature ∈ record.methods := List.mem_of_getElem? (parts.next_record.trans found)
        exact added_substantive signature new unknown method blamed
  · simp only [not_forall] at kept
    obtain ⟨signature, next, gone⟩ := kept
    rw [next, mismatch_removed signature (Bool.eq_false_iff.mpr gone)] at blamed
    obtain rfl : signature = method := Attribution.known.inj blamed
    have was : signature ∈ baseline.methods := List.mem_of_getElem? (parts.next_baseline.trans next)
    exact .removed was (mt (declares_iff record goodRecord signature).mpr gone)

theorem departure_substantive (goodBaseline : baseline.WellFormed) (goodRecord : record.WellFormed)
    (parts : Parts baseline record shared expected actual) (ascendingBaseline : baseline.Ascending)
    (ascendingRecord : record.Ascending) (attribution : Attribution)
    (departs : Departs baseline record expected actual attribution) (method : String)
    (blamed : attribution = .known method) : Substantive baseline record method := by
  cases departs with
  | symbols other expected actual differ =>
      cases blamed
      refine .changed ?_ ?_ fun same => differ (congrArg (Option.getD · []) same)
      · exact List.mem_of_getElem? parts.next_baseline
      · exact List.mem_of_getElem? parts.next_record
  | signatures expected actual differ =>
      exact mismatch_substantive goodBaseline goodRecord parts ascendingBaseline ascendingRecord differ method blamed

end Departure

theorem shared_in_one_order (baseline record : ClassRecord) (ascendingBaseline : baseline.Ascending)
    (ascendingRecord : record.Ascending) :
    baseline.methods.filter (· ∈ record.methods) = record.methods.filter (· ∈ baseline.methods) := by
  refine (ascendingBaseline.filter _).eq_of_mem_iff (ascendingRecord.filter _) fun method => ?_
  simp [and_comm]

-- Where two sorted records part, the next method of the baseline is gone or the next one of the record is
-- new, so a method that both have is blamed only for its symbols or for the new method that they name.
theorem single_records_blame_no_order (baseline record : ClassRecord) (singleBaseline : baseline.FromSingle)
    (singleRecord : record.FromSingle) :
    (∀ method, locateDivergence baseline record = some (.known method) → Substantive baseline record method) ∧
    (∀ method ∈ baseline.methods, method ∈ record.methods →
      baseline.implementation? method = record.implementation? method →
      (∀ added ∈ record.methods, added ∉ baseline.methods →
        ¬ record.RefersTo method added ∧ ¬ baseline.RefersTo method added) →
      locateDivergence baseline record ≠ some (.known method)) ∧
    baseline.methods.filter (· ∈ record.methods) = record.methods.filter (· ∈ baseline.methods) := by
  have ascendingBaseline := from_single_ascending baseline singleBaseline
  have ascendingRecord := from_single_ascending record singleRecord
  have substantive : ∀ method, locateDivergence baseline record = some (.known method) →
      Substantive baseline record method := by
    intro method located
    obtain ⟨shared, expected, actual, parts, departs⟩ := (located_iff_departs _ _ _).mp located
    exact departure_substantive (from_single_well_formed baseline singleBaseline)
      (from_single_well_formed record singleRecord) parts ascendingBaseline ascendingRecord _ departs method rfl
  refine ⟨substantive, fun method _ is same unrelated located => ?_,
    shared_in_one_order baseline record ascendingBaseline ascendingRecord⟩
  cases substantive method located with
  | removed _ gone => exact gone is
  | changed _ _ differ => exact differ same
  | mentions added new unknown refers =>
      obtain ⟨notInRecord, notInBaseline⟩ := unrelated added new unknown
      exact refers.elim notInRecord notInBaseline

def earlierLines : List String :=
  ["  public final z()", "   // Method public final n/m()", "  public final a()"]

def laterLines : List String :=
  ["  public final a()", "  public final n/m()", "  public final z()", "   // Method public final n/m()"]

def earlierRecord : ClassRecord :=
  .ofMethods "1" none [("public final a()", []), ("public final z()", ["public final n/m()"])]

def laterRecord : ClassRecord :=
  .ofMethods "2" none [("public final a()", []), ("public final n/m()", []),
    ("public final z()", ["public final n/m()"])]

theorem sort_methods_to (record sorted : ClassRecord) (beside : { record with methods := sorted.methods } = sorted)
    (same : record.methods.Perm sorted.methods) (ascending : sorted.methods.Pairwise (· ≤ ·)) :
    record.sortMethods = sorted := by
  rw [← beside, ← sort_methods_eq record sorted.methods same ascending]
  rfl

theorem earlier_from_single : earlierRecord.FromSingle := by
  refine ⟨"n/", "1", earlierLines, (Disassembly.single_built _ _ _).trans (congrArg Except.ok ?_)⟩
  exact sort_methods_to _ _ (by decide +kernel) (by decide +kernel) (by decide +kernel)

theorem later_from_single : laterRecord.FromSingle := by
  refine ⟨"n/", "2", laterLines, (Disassembly.single_built _ _ _).trans (congrArg Except.ok ?_)⟩
  exact sort_methods_to _ _ (by decide +kernel) (by decide +kernel) (by decide +kernel)

theorem single_records_blame_no_order_calling :
    (earlierRecord.FromSingle ∧ laterRecord.FromSingle) ∧
      (locateDivergence earlierRecord laterRecord = some (.known "public final z()") ∧
        Substantive earlierRecord laterRecord "public final z()") ∧
      locateDivergence earlierRecord laterRecord ≠ some (.known "public final a()") ∧
      earlierRecord.methods.filter (· ∈ laterRecord.methods) =
        laterRecord.methods.filter (· ∈ earlierRecord.methods) := by
  obtain ⟨substantive, unmoved, inOneOrder⟩ :=
    single_records_blame_no_order earlierRecord laterRecord earlier_from_single later_from_single
  have blamed : locateDivergence earlierRecord laterRecord = some (.known "public final z()") := by
    decide +kernel
  have unrelated : ∀ added ∈ laterRecord.methods, added ∉ earlierRecord.methods →
      ¬ laterRecord.RefersTo "public final a()" added ∧
        ¬ earlierRecord.RefersTo "public final a()" added := by
    simp only [refers_to_iff]
    decide +kernel
  refine ⟨⟨earlier_from_single, later_from_single⟩, ⟨blamed, substantive _ blamed⟩, ?_, inOneOrder⟩
  exact unmoved _ (by decide +kernel) (by decide +kernel) (by decide +kernel) unrelated

end ClassRecord

end BytecodeParity
