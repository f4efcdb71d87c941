import BytecodeParity.Proofs.FirstDifference

/-!
What an attribution rests on. Two records part behind the methods that they share with the same
symbols. A method that is blamed was removed, changed or moved there, or it refers to a method that
is new; nothing is blamed only when a method is new and no method refers to it.
-/

set_option autoImplicit false

namespace BytecodeParity.ClassRecord

-- An absent row counts as one without symbols.
def AgreeOn (baseline record : ClassRecord) (signature : String) : Prop :=
  (baseline.implementation? signature).getD [] = (record.implementation? signature).getD []

structure Parts (baseline record : ClassRecord) (shared expected actual : List String) : Prop where
  ofBaseline : baseline.methods = shared ++ expected
  ofRecord : record.methods = shared ++ actual
  agree : ∀ signature ∈ shared, AgreeOn baseline record signature

inductive Departs (baseline record : ClassRecord) : List String → List String → Attribution → Prop
  | symbols (method : String) (expected actual : List String) (differ : ¬ AgreeOn baseline record method) :
      Departs baseline record (method :: expected) (method :: actual) (.known method)
  | signatures (expected actual : List String) (differ : expected.head? ≠ actual.head?) :
      Departs baseline record expected actual (attributeMismatch baseline record expected.head? actual.head?)

section Walk

variable (baseline record : ClassRecord) (expected actual : List String) (attribution : Attribution)

theorem locate_from_agreed (method : String) (agree : AgreeOn baseline record method) :
    locateFrom baseline record (method :: expected) (method :: actual) =
      locateFrom baseline record expected actual := by
  rw [locateFrom, if_pos rfl]
  exact if_pos agree

theorem locate_from_differing (method : String) (differ : ¬ AgreeOn baseline record method) :
    locateFrom baseline record (method :: expected) (method :: actual) = some (.known method) := by
  rw [locateFrom, if_pos rfl]
  exact if_neg differ

theorem locate_from_shared (shared : List String)
    (agree : ∀ signature ∈ shared, AgreeOn baseline record signature) :
    locateFrom baseline record (shared ++ expected) (shared ++ actual) =
      locateFrom baseline record expected actual := by
  induction shared with
  | nil => rfl
  | cons signature rest ih =>
      rw [List.cons_append, List.cons_append, locate_from_agreed _ _ _ _ _ (agree signature List.mem_cons_self)]
      exact ih fun other member => agree other (List.mem_cons_of_mem _ member)

theorem locate_from_departure (departs : Departs baseline record expected actual attribution) :
    locateFrom baseline record expected actual = some attribution := by
  cases departs with
  | symbols method expected actual differ => exact locate_from_differing _ _ _ _ method differ
  | signatures expected actual differ =>
      cases expected with
      | nil =>
          cases actual with
          | nil => exact absurd rfl differ
          | cons found rest => rfl
      | cons wanted expectedRest =>
          cases actual with
          | nil => rfl
          | cons found actualRest =>
              have different : wanted ≠ found := fun same => differ (congrArg some same)
              rw [locateFrom, if_neg different]
              rfl

theorem departure_of_locate_from (located : locateFrom baseline record expected actual = some attribution) :
    ∃ shared expectedRest actualRest, expected = shared ++ expectedRest ∧ actual = shared ++ actualRest ∧
      (∀ signature ∈ shared, AgreeOn baseline record signature) ∧
      Departs baseline record expectedRest actualRest attribution := by
  have atOnce : ∀ expected actual : List String, expected.head? ≠ actual.head? →
      locateFrom baseline record expected actual = some attribution →
      ∃ shared expectedRest actualRest, expected = shared ++ expectedRest ∧ actual = shared ++ actualRest ∧
        (∀ signature ∈ shared, AgreeOn baseline record signature) ∧
        Departs baseline record expectedRest actualRest attribution := by
    intro expected actual differ located
    have departs : Departs baseline record expected actual _ := .signatures expected actual differ
    rw [locate_from_departure _ _ _ _ _ departs, Option.some.injEq] at located
    exact ⟨[], expected, actual, rfl, rfl, by simp, located ▸ departs⟩
  induction expected generalizing actual with
  | nil =>
      cases actual with
      | nil => cases located
      | cons found rest => exact atOnce [] (found :: rest) (by simp) located
  | cons wanted expectedRest ih =>
      cases actual with
      | nil => exact atOnce (wanted :: expectedRest) [] (by simp) located
      | cons found actualRest =>
          by_cases same : wanted = found
          · subst same
            by_cases agree : AgreeOn baseline record wanted
            · rw [locate_from_agreed _ _ _ _ _ agree] at located
              obtain ⟨shared, restE, restA, equalE, equalA, agreeRest, departs⟩ := ih actualRest located
              exact ⟨wanted :: shared, restE, restA, congrArg _ equalE, congrArg _ equalA,
                List.forall_mem_cons.mpr ⟨agree, agreeRest⟩, departs⟩
            · rw [locate_from_differing _ _ _ _ _ agree] at located
              cases located
              exact ⟨[], _, _, rfl, rfl, by simp, .symbols wanted expectedRest actualRest agree⟩
          · exact atOnce (wanted :: expectedRest) (found :: actualRest) (by simpa using same) located

end Walk

theorem located_iff_departs (baseline record : ClassRecord) (attribution : Attribution) :
    locateDivergence baseline record = some attribution ↔
      ∃ shared expected actual, Parts baseline record shared expected actual ∧
        Departs baseline record expected actual attribution := by
  constructor
  · intro located
    obtain ⟨shared, expected, actual, equalBaseline, equalRecord, agree, departs⟩ :=
      departure_of_locate_from baseline record _ _ attribution located
    exact ⟨shared, expected, actual, ⟨equalBaseline, equalRecord, agree⟩, departs⟩
  · rintro ⟨shared, expected, actual, parts, departs⟩
    rw [locateDivergence, parts.ofBaseline, parts.ofRecord, locate_from_shared _ _ _ _ _ parts.agree]
    exact locate_from_departure _ _ _ _ _ departs

section Mismatch

variable {baseline record : ClassRecord} {expected actual : Option String}

theorem declares_iff (record : ClassRecord) (good : record.WellFormed) (signature : String) :
    record.declares signature ↔ signature ∈ record.methods :=
  (SymbolTable.contains_iff _ _).trans (good.2 signature)

theorem mismatch_removed (signature : String) (gone : record.declares signature = false) :
    attributeMismatch baseline record (some signature) actual = .known signature := by
  simp [attributeMismatch, Option.filter_some, gone]

theorem mismatch_kept (kept : ∀ signature ∈ expected, record.declares signature) :
    attributeMismatch baseline record expected actual = attributeMismatch baseline record none actual := by
  cases expected with
  | none => rfl
  | some signature => simp [attributeMismatch, Option.filter_some, kept signature rfl]

theorem mismatch_moved (signature : String) (known : baseline.declares signature) :
    attributeMismatch baseline record none (some signature) = .known signature := by
  simp [attributeMismatch, known]

theorem mismatch_added (signature : String) (unknown : baseline.declares signature = false) :
    attributeMismatch baseline record none (some signature) =
      ((record.ownerOf? signature).or (baseline.ownerOf? signature)).elim .unknown .known := by
  cases owner : (record.ownerOf? signature).or (baseline.ownerOf? signature) <;>
    simp [attributeMismatch, unknown, owner]

end Mismatch

def RefersTo (record : ClassRecord) (method symbol : String) : Prop :=
  ∃ symbols, record.implementation? method = some symbols ∧ symbol ∈ symbols

theorem refers_to_iff (record : ClassRecord) (method symbol : String) :
    record.RefersTo method symbol ↔ symbol ∈ (record.implementation? method).getD [] := by
  cases row : record.implementation? method <;> simp [RefersTo, row]

theorem implementation_is_some_iff (record : ClassRecord) (good : record.WellFormed) (method : String) :
    (record.implementation? method).isSome ↔ method ∈ record.methods :=
  (SymbolTable.find_is_some_iff _ _).trans (good.2 method)

theorem refers_to_declared (record : ClassRecord) (good : record.WellFormed) (method symbol : String)
    (refers : record.RefersTo method symbol) : method ∈ record.methods := by
  obtain ⟨symbols, row, _⟩ := refers
  exact (implementation_is_some_iff record good method).mp (Option.isSome_of_eq_some row)

theorem owner_of_refers (record : ClassRecord) (method symbol : String)
    (owner : record.ownerOf? symbol = some method) : method ∈ record.methods ∧ record.RefersTo method symbol := by
  refine ⟨List.mem_of_find?_eq_some owner, (refers_to_iff _ _ _).mpr ?_⟩
  simpa using List.find?_some owner

theorem owner_of_none (record : ClassRecord) (good : record.WellFormed) (symbol : String)
    (nobody : record.ownerOf? symbol = none) (method : String) : ¬ record.RefersTo method symbol := by
  intro refers
  have passedOver := List.find?_eq_none.mp nobody method (refers_to_declared record good method symbol refers)
  rw [refers_to_iff] at refers
  exact passedOver (List.contains_iff_mem.mpr refers)

inductive Justified (baseline record : ClassRecord) : Attribution → Prop
  | removed (method : String) (was : method ∈ baseline.methods) (gone : method ∉ record.methods) :
      Justified baseline record (.known method)
  | changed (method : String) (was : method ∈ baseline.methods) (is : method ∈ record.methods)
      (differ : baseline.implementation? method ≠ record.implementation? method) :
      Justified baseline record (.known method)
  | moved (method : String) (before after : Nat) (was : baseline.methods[before]? = some method)
      (is : record.methods[after]? = some method) (apart : before ≠ after) :
      Justified baseline record (.known method)
  | mentions (method added : String) (new : added ∈ record.methods) (unknown : added ∉ baseline.methods)
      (refers : method ∈ record.methods ∧ record.RefersTo method added ∨
        method ∈ baseline.methods ∧ baseline.RefersTo method added) :
      Justified baseline record (.known method)
  | unmentioned (added : String) (new : added ∈ record.methods) (unknown : added ∉ baseline.methods)
      (nowhere : ∀ method, ¬ record.RefersTo method added ∧ ¬ baseline.RefersTo method added) :
      Justified baseline record .unknown

section Justification

variable {baseline record : ClassRecord} {shared expected actual : List String}

theorem get_behind_shared (shared rest : List String) : (shared ++ rest)[shared.length]? = rest.head? := by
  rw [List.getElem?_append_right (Nat.le_refl _), Nat.sub_self, List.head?_eq_getElem?]

theorem Parts.next_baseline (parts : Parts baseline record shared expected actual) :
    baseline.methods[shared.length]? = expected.head? := by
  rw [parts.ofBaseline, get_behind_shared]

theorem Parts.next_record (parts : Parts baseline record shared expected actual) :
    record.methods[shared.length]? = actual.head? := by
  rw [parts.ofRecord, get_behind_shared]

-- A record that ends first declares nothing behind the shared methods, and these are not repeated.
theorem Parts.ended_removes (parts : Parts baseline record shared expected [])
    (goodBaseline : baseline.WellFormed) (signature : String) (next : expected.head? = some signature) :
    signature ∉ record.methods := by
  obtain ⟨rest, rfl⟩ := List.head?_eq_some_iff.mp next
  have distinct := goodBaseline.1
  rw [parts.ofBaseline] at distinct
  rw [parts.ofRecord, List.append_nil]
  exact fun again => (List.nodup_append.mp distinct).2.2 _ again _ List.mem_cons_self rfl

theorem added_justified (goodBaseline : baseline.WellFormed) (goodRecord : record.WellFormed) (added : String)
    (new : added ∈ record.methods) (unknown : added ∉ baseline.methods) :
    Justified baseline record (((record.ownerOf? added).or (baseline.ownerOf? added)).elim .unknown .known) := by
  cases inRecord : record.ownerOf? added with
  | some owner => exact .mentions owner added new unknown (.inl (owner_of_refers record owner added inRecord))
  | none =>
      cases inBaseline : baseline.ownerOf? added with
      | some owner => exact .mentions owner added new unknown (.inr (owner_of_refers baseline owner added inBaseline))
      | none =>
          refine .unmentioned added new unknown fun method => ⟨?_, ?_⟩
          · exact owner_of_none record goodRecord added inRecord method
          · exact owner_of_none baseline goodBaseline added inBaseline method

theorem mismatch_justified (goodBaseline : baseline.WellFormed) (goodRecord : record.WellFormed)
    (parts : Parts baseline record shared expected actual) (differ : expected.head? ≠ actual.head?) :
    Justified baseline record (attributeMismatch baseline record expected.head? actual.head?) := by
  have nextBaseline := parts.next_baseline
  have nextRecord := parts.next_record
  by_cases kept : ∀ signature ∈ expected.head?, record.declares signature
  · rw [mismatch_kept kept]
    cases actual with
    | nil =>
        obtain ⟨signature, next⟩ := Option.ne_none_iff_exists'.mp differ
        have gone := parts.ended_removes goodBaseline signature next
        exact absurd ((declares_iff record goodRecord signature).mp (kept signature next)) gone
    | cons found rest =>
        by_cases known : found ∈ baseline.methods
        · obtain ⟨before, was⟩ := List.mem_iff_getElem?.mp known
          rw [List.head?_cons, mismatch_moved found ((declares_iff baseline goodBaseline found).mpr known)]
          refine .moved found before shared.length was nextRecord fun same => differ ?_
          rw [← nextBaseline, ← same, was, List.head?_cons]
        · have undeclared := Bool.eq_false_iff.mpr (mt (declares_iff baseline goodBaseline found).mp known)
          rw [List.head?_cons, mismatch_added found undeclared]
          exact added_justified goodBaseline goodRecord found (List.mem_of_getElem? nextRecord) known
  · simp only [not_forall] at kept
    obtain ⟨signature, next, gone⟩ := kept
    rw [next, mismatch_removed signature (Bool.eq_false_iff.mpr gone)]
    refine .removed signature (List.mem_of_getElem? (nextBaseline.trans next)) ?_
    exact mt (declares_iff record goodRecord signature).mpr gone

theorem departure_justified (goodBaseline : baseline.WellFormed) (goodRecord : record.WellFormed)
    (attribution : Attribution) (parts : Parts baseline record shared expected actual)
    (departs : Departs baseline record expected actual attribution) : Justified baseline record attribution := by
  cases departs with
  | symbols method expected actual differ =>
      refine .changed method ?_ ?_ fun same => differ (congrArg (Option.getD · []) same)
      · exact List.mem_of_getElem? parts.next_baseline
      · exact List.mem_of_getElem? parts.next_record
  | signatures expected actual differ => exact mismatch_justified goodBaseline goodRecord parts differ

theorem located_justified (goodBaseline : baseline.WellFormed) (goodRecord : record.WellFormed)
    (attribution : Attribution) (located : locateDivergence baseline record = some attribution) :
    Justified baseline record attribution := by
  obtain ⟨shared, expected, actual, parts, departs⟩ := (located_iff_departs _ _ _).mp located
  exact departure_justified goodBaseline goodRecord attribution parts departs

theorem blamed_declared (goodBaseline : baseline.WellFormed) (goodRecord : record.WellFormed) (method : String)
    (located : locateDivergence baseline record = some (.known method)) :
    (baseline.implementation? method).isSome ∨ (record.implementation? method).isSome := by
  rw [implementation_is_some_iff baseline goodBaseline, implementation_is_some_iff record goodRecord]
  cases located_justified goodBaseline goodRecord _ located with
  | removed _ was _ => exact .inl was
  | changed _ was _ _ => exact .inl was
  | moved _ before _ was _ _ => exact .inl (List.mem_of_getElem? was)
  | mentions _ added _ _ refers =>
      rcases refers with ⟨is, _⟩ | ⟨was, _⟩
      · exact .inr is
      · exact .inl was

end Justification

-- Records that differ are told apart, and whatever is blamed then stands in one of the relations above
-- to them. Nothing at all is blamed only on account of a method that is new.
theorem attributions_justified (baseline record : ClassRecord) (goodBaseline : baseline.WellFormed)
    (goodRecord : record.WellFormed) :
    (¬ baseline.StructurallyEqual record → ∃ attribution, locateDivergence baseline record = some attribution) ∧
    (∀ attribution, locateDivergence baseline record = some attribution → Justified baseline record attribution) ∧
    ((∀ signature ∈ record.methods, signature ∈ baseline.methods) →
      locateDivergence baseline record ≠ some .unknown) := by
  have justified := located_justified goodBaseline goodRecord
  refine ⟨fun different => ?_, justified, fun nothingNew located => ?_⟩
  · exact Option.ne_none_iff_exists'.mp (mt (locate_none_iff baseline record goodBaseline goodRecord).mp different)
  · cases justified .unknown located with
    | unmentioned added new unknown nowhere => exact unknown (nothingNew added new)

def calling : ClassRecord :=
  .ofMethods "1" (some "A") [("a()", ["X"]), ("b()", ["n()"]), ("c()", [])]

def callingNew : ClassRecord :=
  .ofMethods "2" (some "A") [("a()", ["X"]), ("n()", []), ("b()", ["n()"]), ("c()", [])]

def callingOther : ClassRecord :=
  .ofMethods "2" (some "A") [("a()", ["X"]), ("b()", ["n()"]), ("o()", ["X"]), ("c()", [])]

def callingLater : ClassRecord :=
  .ofMethods "2" (some "A") [("a()", ["X"]), ("c()", []), ("b()", ["n()"])]

theorem attributions_justified_calling :
    (calling.WellFormed ∧ callingNew.WellFormed ∧ callingOther.WellFormed ∧ callingLater.WellFormed) ∧
      (locateDivergence calling callingNew = some (.known "b()") ∧
        Justified calling callingNew (.known "b()")) ∧
      (locateDivergence calling callingOther = some .unknown ∧ Justified calling callingOther .unknown) ∧
      (∀ signature ∈ callingLater.methods, signature ∈ calling.methods) ∧
      locateDivergence calling callingLater ≠ some .unknown := by
  have good : calling.WellFormed := of_methods_well_formed _ _ _
  have goodNew : callingNew.WellFormed := of_methods_well_formed _ _ _
  have goodOther : callingOther.WellFormed := of_methods_well_formed _ _ _
  have goodLater : callingLater.WellFormed := of_methods_well_formed _ _ _
  have blamed : locateDivergence calling callingNew = some (.known "b()") := by decide
  have nothing : locateDivergence calling callingOther = some .unknown := by decide
  have nothingNew : ∀ signature ∈ callingLater.methods, signature ∈ calling.methods := by decide
  exact ⟨⟨good, goodNew, goodOther, goodLater⟩,
    ⟨blamed, (attributions_justified calling callingNew good goodNew).2.1 _ blamed⟩,
    ⟨nothing, (attributions_justified calling callingOther good goodOther).2.1 _ nothing⟩,
    nothingNew, (attributions_justified calling callingLater good goodLater).2.2 nothingNew⟩

end BytecodeParity.ClassRecord
