import BytecodeParity.Proofs.CallPlan
import BytecodeParity.Proofs.SingleRecords
import BytecodeParity.Proofs.SortedNames
import BytecodeParity.Proofs.SuccessCoverage

/-!
The mark of a halted class. It is set together with the divergence, before it is known whether a version
follows. So it tells that the class was left, and only where the divergence is not that of the last version
has a version been passed over because of it.
-/

set_option autoImplicit false

namespace BytecodeParity

theorem last_iff_nothing_later {α : Type} (earlier later : List α) (item : α)
    (distinct : (earlier ++ item :: later).Nodup) :
    (earlier ++ item :: later).getLast? = some item ↔ later = [] := by
  obtain ⟨_, ⟨notLater, _⟩, _⟩ := by simpa only [List.nodup_append', List.nodup_cons] using distinct
  rw [List.getLast?_append, List.getLast?_cons, Option.some_or, Option.some.injEq]
  constructor
  · intro isLast
    by_contra goesOn
    obtain ⟨last, ends⟩ := Option.ne_none_iff_exists'.mp (mt List.getLast?_eq_none_iff.mp goesOn)
    rw [ends, Option.getD_some] at isLast
    exact notLater (isLast ▸ List.mem_of_getLast? ends)
  · rintro rfl
    rfl

namespace ClassReport

def LaterSkipped (versions passed : List String) (report : ClassReport) : Prop :=
  ∃ divergence ∈ report.divergences, ∃ earlier later, versions = earlier ++ divergence.version :: later ∧
    ∃ version ∈ later, version ∈ passed

-- What the mark of a report says, given the versions of the run and those that were passed over for its
-- class. The version of the divergence can be passed over with the later ones where it is given twice.
structure Marked (keepGoing : Bool) (versions passed : List String) (report : ClassReport) : Prop where
  halted_iff : report.halted ↔ keepGoing = false ∧ report.divergences ≠ []
  unhalted : report.halted = false → passed = []
  left : report.halted → ∃ divergence earlier later, report.divergences = [divergence] ∧
    versions = earlier ++ divergence.version :: later ∧ later ⊆ passed ∧ passed ⊆ divergence.version :: later

theorem Marked.later_iff {keepGoing : Bool} {versions passed : List String} {report : ClassReport}
    (marked : Marked keepGoing versions passed report) (distinct : versions.Nodup) :
    (report.halted ↔ keepGoing = false ∧ report.LaterSkipped versions passed) ↔
      (keepGoing = false → ∀ divergence ∈ report.divergences, versions.getLast? ≠ some divergence.version) := by
  constructor
  · intro said halts divergence member isLast
    have halted := marked.halted_iff.mpr ⟨halts, List.ne_nil_of_mem member⟩
    obtain ⟨only, _, _, single, _⟩ := marked.left halted
    obtain ⟨_, other, isOther, earlier, later, rfl, version, isLater, _⟩ := said.mp halted
    obtain rfl : other = divergence := by
      rw [single, List.mem_singleton] at member isOther
      rw [member, isOther]
    rw [(last_iff_nothing_later _ _ _ distinct).mp isLast] at isLater
    cases isLater
  · intro goesOn
    constructor
    · intro halted
      have halts := (marked.halted_iff.mp halted).1
      obtain ⟨divergence, earlier, later, single, split, skipped, _⟩ := marked.left halted
      have member : divergence ∈ report.divergences := by simp [single]
      have notLast := goesOn halts divergence member
      rw [split] at distinct
      rw [split, ne_eq, last_iff_nothing_later _ _ _ distinct] at notLast
      obtain ⟨version, isLater⟩ := List.exists_mem_of_ne_nil later notLast
      exact ⟨halts, divergence, member, earlier, later, split, version, isLater, skipped isLater⟩
    · rintro ⟨halts, divergence, member, _⟩
      exact marked.halted_iff.mpr ⟨halts, List.ne_nil_of_mem member⟩

end ClassReport

namespace ReportEntry

theorem diverged_of_diverges (entry : ReportEntry) (diverges : entry.diverges) :
    ∃ divergence, entry = .diverged divergence := by
  cases entry with
  | agreed version => cases diverges
  | diverged divergence => exact ⟨divergence, rfl⟩
  | failed failure => cases diverges

theorem any_diverges_iff (entries : List ReportEntry) :
    entries.any diverges ↔ entries.filterMap divergence? ≠ [] := by
  induction entries with
  | nil => simp
  | cons entry entries ih => cases entry <;> simp_all [diverges, divergence?]

end ReportEntry

namespace Session

theorem Event.entry_version (event : Event) (earlier : List ClassRecord) :
    (event.entry earlier).version = event.version := by
  cases event with
  | offered record => exact ReportEntry.of_record_version earlier record
  | failed className missing => rfl

namespace Track

theorem follow_halted_iff (keepGoing : Bool) (className : Option String) (events : List Event)
    (own : ∀ event ∈ events, event.className? = className) (report : ClassReport)
    (kept : (initial.follow keepGoing events).report = some report) :
    (report.halted ↔ keepGoing = false ∧ report.divergences ≠ []) ∧
      (keepGoing = false → report.divergences.length ≤ 1) := by
  have entered := follow_report_eq keepGoing className events own report kept
  have lists : report.Lists (ReportEntry.reached keepGoing (ledger [] events)) :=
    entered ▸ ClassReport.enter_all_lists keepGoing className _
  constructor
  · rw [entered, ClassReport.enter_all_halted, ← entered, lists.divergences, ← ReportEntry.any_diverges_iff]
    cases (ReportEntry.reached keepGoing (ledger [] events)).any ReportEntry.diverges <;>
      simp [ClassReport.empty]
  · rintro rfl
    rw [lists.divergences, ReportEntry.reached_divergences]
    exact List.length_take_le 1 _

theorem apply_halts (keepGoing : Bool) (track : Track) (event : Event) (running : track.halted = false)
    (halts : (track.apply keepGoing event).halted) :
    ∃ report divergence, (track.apply keepGoing event).report = some report ∧ divergence ∈ report.divergences ∧
      divergence.version = event.version := by
  rw [apply_halted keepGoing track event running, Bool.and_eq_true] at halts
  obtain ⟨divergence, entered⟩ := ReportEntry.diverged_of_diverges _ halts.1
  refine ⟨_, divergence, apply_report keepGoing track event, ?_, ?_⟩
  · rw [entered]
    exact List.mem_append_right _ (List.mem_singleton_self divergence)
  · rw [← event.entry_version track.records, entered]
    rfl

end Track

section Comparison

variable {ε α : Type} {className : α → Option String} {read : α → Except ε Reading}

def passedOver (className : α → Option String) (read : α → Except ε Reading) : List α → Session → List α
  | [], _ => []
  | input :: inputs, session =>
      if session.isHalted (className input) then input :: passedOver className read inputs session
      else
        match read input with
        | .error _ => []
        | .ok reading => passedOver className read inputs (session.take reading)

def passedVersions (className : α → Option String) (version : α → String) (read : α → Except ε Reading)
    (inputs : List α) (keepGoing : Bool) (name : Option String) : List String :=
  ((passedOver className read inputs (start keepGoing)).filter fun input => className input = name).map version

variable (faithful : Faithful className read)
include faithful

theorem passed_over_halted (inputs : List α) (session last : Session) (valid : session.Valid)
    (done : compare className read inputs session = (.ok (), last)) (name : Option String)
    (halted : (session.track name).halted) :
    (passedOver className read inputs session).filter (fun input => className input = name) =
      inputs.filter fun input => className input = name := by
  induction inputs generalizing session with
  | nil => rfl
  | cons input inputs ih =>
      rw [passedOver]
      rcases compare_cons_done done with ⟨passed, done⟩ | ⟨running, reading, readEq, done⟩
      · rw [if_pos passed, List.filter_cons, List.filter_cons, ih session valid done halted]
      · have other : className input ≠ name := by
          rintro rfl
          exact running ((is_halted_eq session valid _).trans halted)
        have next := read_valid faithful session valid input reading running readEq
        have same := take_other_track faithful session valid input reading readEq name other
        rw [if_neg running, readEq, List.filter_cons_of_neg (by simpa using other)]
        exact ih (session.take reading) next done (same ▸ halted)

theorem passed_over_running (inputs : List α) (session last : Session) (valid : session.Valid)
    (done : compare className read inputs session = (.ok (), last)) (name : Option String)
    (running : last.isHalted name = false) :
    (passedOver className read inputs session).filter (fun input => className input = name) = [] := by
  induction inputs generalizing session with
  | nil => rfl
  | cons input inputs ih =>
      have stays := compare_stays_halted faithful (input :: inputs) session last valid done name
      rw [passedOver]
      rcases compare_cons_done done with ⟨passed, done⟩ | ⟨unhalted, reading, readEq, done⟩
      · have other : className input ≠ name := by
          rintro rfl
          rw [stays passed] at running
          cases running
        rw [if_pos passed, List.filter_cons_of_neg (by simpa using other)]
        exact ih session valid done
      · rw [if_neg unhalted, readEq]
        exact ih _ (read_valid faithful session valid input reading unhalted readEq) done

theorem take_halts (version : α → String)
    (named : ∀ input event, event? (read input) = some event → event.version = version input) (session : Session)
    (valid : session.Valid) (input : α) (reading : Reading) (readEq : read input = .ok reading)
    (name : Option String) (running : (session.track name).halted = false)
    (halts : ((session.take reading).track name).halted) :
    className input = name ∧ ∃ report divergence, (session.take reading).report? name = some report ∧
      divergence ∈ report.divergences ∧ divergence.version = version input := by
  have changed := take_track (ε := ε) session valid reading name
  rw [← readEq] at changed
  cases brings : event? (read input) with
  | none =>
      rw [brings] at changed
      rw [changed, running] at halts
      cases halts
  | some event =>
      rw [brings] at changed
      simp only at changed
      split at changed
      · next own =>
          rw [changed] at halts
          obtain ⟨report, divergence, kept, member, same⟩ :=
            Track.apply_halts session.keepGoing _ event running halts
          have isOwn := (faithful_event className read faithful input event brings).1
          have reported := (congrArg Track.report changed).trans kept
          exact ⟨isOwn ▸ own, report, divergence, reported, member, same.trans (named input event brings)⟩
      · rw [changed, running] at halts
        cases halts

-- The last input of a halted class that was read is the one that brought the divergence.
theorem compare_leaves (version : α → String)
    (named : ∀ input event, event? (read input) = some event → event.version = version input) (inputs : List α)
    (session last : Session) (valid : session.Valid)
    (done : compare className read inputs session = (.ok (), last)) (name : Option String)
    (running : (session.track name).halted = false) (halted : (last.track name).halted) :
    ∃ before input after report divergence, inputs = before ++ input :: after ∧ className input = name ∧
      last.report? name = some report ∧ divergence ∈ report.divergences ∧ divergence.version = version input ∧
      (passedOver className read inputs session).filter (fun input => className input = name) =
        after.filter fun input => className input = name := by
  induction inputs generalizing session with
  | nil =>
      rw [compare] at done
      cases done
      rw [running] at halted
      cases halted
  | cons input inputs ih =>
      rw [passedOver]
      rcases compare_cons_done done with ⟨passed, done⟩ | ⟨unhalted, reading, readEq, done⟩
      · have other : className input ≠ name := by
          rintro rfl
          rw [is_halted_eq session valid] at passed
          exact absurd (passed.symm.trans running) (by simp)
        obtain ⟨before, found, after, report, divergence, rfl, rest⟩ := ih session valid done running
        rw [if_pos passed, List.filter_cons_of_neg (by simpa using other)]
        exact ⟨input :: before, found, after, report, divergence, rfl, rest⟩
      · rw [if_neg unhalted, readEq]
        have next := read_valid faithful session valid input reading unhalted readEq
        cases halts : ((session.take reading).track name).halted with
        | false =>
            obtain ⟨before, found, after, report, divergence, rfl, rest⟩ :=
              ih (session.take reading) next done halts
            exact ⟨input :: before, found, after, report, divergence, rfl, rest⟩
        | true =>
            obtain ⟨own, report, divergence, kept, member, same⟩ :=
              take_halts faithful version named session valid input reading readEq name running halts
            have stays : last.report? name = (session.take reading).report? name := by
              have still := compare_track faithful inputs _ last next done name
              rw [Track.follow_halted _ _ _ halts] at still
              exact congrArg Track.report still
            have passed := passed_over_halted faithful inputs _ last next done name halts
            exact ⟨[], input, inputs, report, divergence, rfl, own, stays.trans kept, member, same, passed⟩

theorem compare_marked (version : α → String)
    (named : ∀ input event, event? (read input) = some event → event.version = version input) (inputs : List α)
    (keepGoing : Bool) (last : Session) (done : compare className read inputs (start keepGoing) = (.ok (), last))
    (report : ClassReport) (member : report ∈ last.classes) :
    let passed := passedVersions className version read inputs keepGoing report.className
    (report.halted ↔ keepGoing = false ∧ report.divergences ≠ []) ∧ (report.halted = false → passed = []) ∧
      (report.halted → ∃ before input after divergence, inputs = before ++ input :: after ∧
        className input = report.className ∧ report.divergences = [divergence] ∧
        divergence.version = version input ∧
        passed = (after.filter fun input => className input = report.className).map version) := by
  obtain ⟨valid, -⟩ := compare_from_start faithful inputs keepGoing last done
  have found := report_of_mem last valid report member
  have entered := (compare_report faithful inputs keepGoing last done report.className).symm.trans found
  obtain ⟨halts, single⟩ := Track.follow_halted_iff keepGoing _ _ (class_events_own inputs _) report entered
  have tracked : (last.track report.className).halted = report.halted := by
    rw [Track.halted, track, found, Option.any_some]
  refine ⟨halts, fun running => ?_, fun halted => ?_⟩
  · rw [← tracked, ← is_halted_eq last valid] at running
    rw [passedVersions,
      passed_over_running faithful inputs _ last (start_valid keepGoing) done report.className running, List.map_nil]
  · obtain ⟨before, input, after, other, divergence, split, own, kept, listed, same, passed⟩ :=
      compare_leaves faithful version named inputs _ last (start_valid keepGoing) done report.className rfl
        (tracked.trans halted)
    obtain rfl : report = other := Option.some.inj (found.symm.trans kept)
    refine ⟨before, input, after, divergence, split, own, ?_, same, by rw [passedVersions, passed]⟩
    obtain ⟨only, alone⟩ := List.length_eq_one_iff.mp
      (Nat.le_antisymm (single (halts.mp halted).1) (List.length_pos_of_mem listed))
    rw [alone, List.mem_singleton] at listed
    rw [alone, listed]

end Comparison

end Session

namespace Verification

def passedVersions (verification : Verification) (tree : FileTree) (pairs : List (String × String))
    (name : Option String) : List String :=
  Session.passedVersions (fun pair => some pair.2) (·.1) (verification.readPair tree) pairs
    verification.options.keepGoing name

theorem pairs_split (versions classes : List String) (version className : String)
    (before after : List (String × String))
    (split : pairs versions classes = before ++ (version, className) :: after) :
    className ∈ classes ∧ ∃ earlier later, versions = earlier ++ version :: later ∧ ∃ rest : List String,
      after = rest.map (fun className => (version, className)) ++ pairs later classes := by
  induction versions generalizing before with
  | nil => simp [pairs] at split
  | cons first versions ih =>
      rw [pairs, List.flatMap_cons, List.append_eq_append_iff] at split
      rcases split with ⟨between, rfl, tail⟩ | ⟨between, here, tail⟩
      · obtain ⟨known, earlier, later, rfl, behind⟩ := ih between tail
        exact ⟨known, first :: earlier, later, rfl, behind⟩
      · cases between with
        | nil =>
            rw [List.nil_append] at tail
            obtain ⟨known, earlier, later, rfl, behind⟩ := ih [] tail.symm
            exact ⟨known, first :: earlier, later, rfl, behind⟩
        | cons pair between =>
            obtain ⟨rfl, rfl⟩ := List.cons_eq_cons.mp tail
            obtain ⟨others, rest', rfl, _, same⟩ := List.map_eq_append_iff.mp here
            obtain ⟨own, rest, rfl, same', rfl⟩ := List.map_eq_cons_iff.mp same
            obtain ⟨rfl, rfl⟩ := Prod.mk.inj same'
            exact ⟨by simp, [], versions, rfl, rest, rfl⟩

theorem compared_marked (verification : Verification) (tree : FileTree) (versions classes : List String)
    (last : Session) (done : verification.compared tree (pairs versions classes) = (.ok (), last))
    (report : ClassReport) (member : report ∈ last.classes) :
    report.Marked verification.options.keepGoing versions
      (verification.passedVersions tree (pairs versions classes) report.className) := by
  obtain ⟨halts, unhalted, left⟩ := Session.compare_marked (read_pair_faithful verification tree) (·.1)
    (read_pair_version verification tree) _ _ last done report member
  refine ⟨halts, unhalted, fun halted => ?_⟩
  obtain ⟨before, ⟨version, className⟩, after, divergence, split, own, single, same, passed⟩ := left halted
  obtain ⟨known, earlier, later, behind, rest, rfl⟩ := pairs_split versions classes version className before after split
  refine ⟨divergence, earlier, later, single, same ▸ behind, ?_, ?_⟩
  · intro other isLater
    rw [passedVersions, passed, ← own]
    have given := (mem_pairs_iff later classes other className).mpr ⟨isLater, known⟩
    exact List.mem_map_of_mem
      (List.mem_filter.mpr ⟨List.mem_append_right _ given, by simp⟩)
  · intro other skipped
    rw [passedVersions, passed] at skipped
    obtain ⟨pair, isAfter, rfl⟩ := List.mem_map.mp skipped
    rcases List.mem_append.mp (List.mem_filter.mp isAfter).1 with inRest | inLater
    · obtain ⟨_, _, rfl⟩ := List.mem_map.mp inRest
      exact same ▸ List.mem_cons_self
    · exact List.mem_cons_of_mem _ ((mem_pairs_iff later classes pair.1 pair.2).mp inLater).1

theorem run_versions_distinct (verification : Verification) (now : String) (tree : FileTree) (report : Report)
    (reported : (verification.run now tree).1 = .ok report) (distinct : (tree.entries.map (·.1)).Nodup) :
    report.versions.Nodup := by
  obtain ⟨versions, classes, reached, last, prepared, _, rfl⟩ := (run_ok_iff _ _ _ _).mp reported
  obtain ⟨patterns, _, _, listed, _⟩ := prepared_plan verification ⟨tree, [], []⟩ reached versions classes prepared
  exact (Discovery.sorted_names_strict distinct listed).imp fun before => ne_of_lt before

theorem run_marked (verification : Verification) (now : String) (tree : FileTree) (report : Report)
    (reported : (verification.run now tree).1 = .ok report) :
    ∃ classes, ((verification.prepare .plain).run ⟨tree, [], []⟩).1 = .ok (report.versions, classes) ∧
      ∀ entry ∈ report.classes, entry.Marked verification.options.keepGoing report.versions
        (verification.passedVersions (verification.run now tree).2.tree (pairs report.versions classes)
          entry.className) := by
  obtain ⟨classes, last, prepared, done, same⟩ := run_compared verification now tree report reported
  refine ⟨classes, prepared, fun entry member => ?_⟩
  exact verification.compared_marked _ _ classes last done entry (same ▸ member)

end Verification

namespace SingleRun

def passedVersions (namespacePrefix : String) (tree : FileTree) (inputs : List SingleInput) (keepGoing : Bool) :
    List String :=
  Session.passedVersions (fun _ => none) (·.version) (readInput namespacePrefix tree) inputs keepGoing none

theorem run_marked (namespacePrefix : String) (keepGoing : Bool) (inputs : List SingleInput) (now : String)
    (tree : FileTree) (report : Report)
    (reported : (run namespacePrefix keepGoing inputs now tree).1 = .ok report) :
    report.versions = inputs.map (·.version) ∧ ∀ entry ∈ report.classes,
      entry.Marked keepGoing report.versions (passedVersions namespacePrefix tree inputs keepGoing) := by
  obtain ⟨_, last, done, rfl⟩ := (run_ok_iff _ _ _ _ _ _).mp reported
  refine ⟨rfl, fun entry member => ?_⟩
  have unnamed : none = entry.className := by
    obtain ⟨input, given, _⟩ := (Session.reported_iff (read_input_faithful namespacePrefix tree) inputs keepGoing last
      done entry.className).mp ⟨entry, member, rfl⟩
    exact of_decide_eq_true (List.mem_filter.mp given).2
  obtain ⟨halts, unhalted, left⟩ := Session.compare_marked (read_input_faithful namespacePrefix tree) (·.version)
    (read_input_version namespacePrefix tree) _ _ last done entry member
  rw [← unnamed] at unhalted left
  refine ⟨halts, unhalted, fun halted => ?_⟩
  obtain ⟨before, input, after, divergence, rfl, _, single, same, passed⟩ := left halted
  have behind : passedVersions namespacePrefix tree (before ++ input :: after) keepGoing = after.map (·.version) := by
    simpa [passedVersions] using passed
  exact ⟨divergence, before.map (·.version), after.map (·.version), single, by simp [same],
    behind ▸ List.Subset.refl _, behind ▸ List.subset_cons_self _ _⟩

end SingleRun

-- A class is left at the first divergence of a halting run, and then all versions behind it are passed over,
-- and no others. Its mark tells more than that where the divergence is that of the last version.
theorem halted_iff_diverged (verification : Verification) (namespacePrefix : String) (keepGoing : Bool)
    (inputs : List SingleInput) (now : String) (tree : FileTree) (report : Report) :
    ((verification.run now tree).1 = .ok report →
      ∃ classes, ((verification.prepare .plain).run ⟨tree, [], []⟩).1 = .ok (report.versions, classes) ∧
        ∀ entry ∈ report.classes,
          let passed := verification.passedVersions (verification.run now tree).2.tree
            (Verification.pairs report.versions classes) entry.className
          entry.Marked verification.options.keepGoing report.versions passed ∧
            ((tree.entries.map (·.1)).Nodup →
              ((entry.halted ↔ verification.options.keepGoing = false ∧ entry.LaterSkipped report.versions passed) ↔
                (verification.options.keepGoing = false → ∀ divergence ∈ entry.divergences,
                  report.versions.getLast? ≠ some divergence.version)))) ∧
    ((SingleRun.run namespacePrefix keepGoing inputs now tree).1 = .ok report →
      report.versions = inputs.map (·.version) ∧ ∀ entry ∈ report.classes,
        let passed := SingleRun.passedVersions namespacePrefix tree inputs keepGoing
        entry.Marked keepGoing report.versions passed ∧
          (report.versions.Nodup →
            ((entry.halted ↔ keepGoing = false ∧ entry.LaterSkipped report.versions passed) ↔
              (keepGoing = false → ∀ divergence ∈ entry.divergences,
                report.versions.getLast? ≠ some divergence.version)))) := by
  constructor
  · intro reported
    obtain ⟨classes, prepared, marked⟩ := verification.run_marked now tree report reported
    refine ⟨classes, prepared, fun entry member => ⟨marked entry member, fun distinct => ?_⟩⟩
    exact (marked entry member).later_iff (verification.run_versions_distinct now tree report reported distinct)
  · intro reported
    obtain ⟨given, marked⟩ := SingleRun.run_marked namespacePrefix keepGoing inputs now tree report reported
    exact ⟨given, fun entry member => ⟨marked entry member, (marked entry member).later_iff⟩⟩

set_option maxRecDepth 10000 in
theorem changing_outline_halting :
    (SingleRun.run "n/" false changingInputs "noon" changingTree).1.toOption.map outline =
      some [(["1"], ["2"], [], true)] := by decide +kernel

theorem outlined_entry (report : Report) (agreed diverged failed : List String) (halted : Bool)
    (outlined : outline report = [(agreed, diverged, failed, halted)]) (entry : ClassReport)
    (member : entry ∈ report.classes) :
    entry.divergences.map (·.version) = diverged ∧ entry.halted = halted := by
  have listed : (entry.versions, entry.divergences.map (·.version), entry.buildFailures.map (·.version), entry.halted) ∈
      outline report := List.mem_map_of_mem member
  rw [outlined, List.mem_singleton] at listed
  obtain ⟨_, diverges, _, marked⟩ := by simpa only [Prod.mk.injEq] using listed
  exact ⟨diverges, marked⟩

theorem halted_iff_diverged_uneven :
    (∃ report classes, (returningVerification.run "noon" unevenTree).1 = .ok report ∧
      outline report = [(["1"], ["4"], ["3"], true)] ∧
      ∀ entry ∈ report.classes, entry.LaterSkipped ["1", "2", "3", "4", "5"]
        (returningVerification.passedVersions (returningVerification.run "noon" unevenTree).2.tree
          (Verification.pairs report.versions classes) entry.className)) ∧
    ∃ report, (SingleRun.run "n/" false changingInputs "noon" changingTree).1 = .ok report ∧
      outline report = [(["1"], ["2"], [], true)] ∧
      ∀ entry ∈ report.classes, entry.LaterSkipped ["1", "2", "3"]
        (SingleRun.passedVersions "n/" changingTree changingInputs false) := by
  obtain ⟨report, ran, outlined⟩ := outlined_report _ _ uneven_outline_halting
  obtain ⟨single, ranSingle, outlinedSingle⟩ := outlined_report _ _ changing_outline_halting
  obtain ⟨classes, prepared, marked⟩ :=
    (halted_iff_diverged returningVerification "n/" false [] "noon" unevenTree report).1 ran
  obtain ⟨given, markedSingle⟩ :=
    (halted_iff_diverged returningVerification "n/" false changingInputs "noon" changingTree single).2 ranSingle
  refine ⟨⟨report, classes, ran, outlined, fun entry member => ?_⟩, single, ranSingle, outlinedSingle,
    fun entry member => ?_⟩
  · have found := uneven_prepared.symm.trans (Verification.prepare_keeping returningVerification true ▸ prepared)
    obtain ⟨versions, -⟩ := Prod.mk.inj (Except.ok.inj found)
    obtain ⟨diverged, halted⟩ := outlined_entry report _ _ _ _ outlined entry member
    have later := (marked entry member).2 (by decide)
    rw [← versions] at later ⊢
    refine ((later.mpr fun _ divergence listed => ?_).mp halted).2
    have version : divergence.version ∈ ["4"] := diverged ▸ List.mem_map_of_mem listed
    simp [List.mem_singleton.mp version]
  · obtain ⟨diverged, halted⟩ := outlined_entry single _ _ _ _ outlinedSingle entry member
    have versions : single.versions = ["1", "2", "3"] := given
    rw [versions] at markedSingle
    have later := (markedSingle entry member).2 (by decide)
    refine ((later.mpr fun _ divergence listed => ?_).mp halted).2
    have version : divergence.version ∈ ["2"] := diverged ▸ List.mem_map_of_mem listed
    simp [List.mem_singleton.mp version]

def endingTree : FileTree :=
  ⟨[(["r"], .folder), (["r", "1"], .folder), (["r", "2"], .folder), (["r", "1", "c"], .folder),
    (["r", "1", "c", "A.class"], .ofText ""), (["r", "1", "bytecode_1_A.txt"], .ofText (methodCalling "n/X")),
    (["r", "1", "bytecode_1_A_methods.txt"], .ofText listedMethod),
    (["r", "2", "bytecode_2_A.txt"], .ofText (methodCalling "n/Y")),
    (["r", "2", "bytecode_2_A_methods.txt"], .ofText listedMethod)], []⟩

def endingEntry : ClassReport :=
  ⟨some "A", ["1"], [⟨some "A", "1", "2", .known "m();", [⟨"1", some ["n/X"]⟩, ⟨"2", some ["n/Y"]⟩]⟩], [], true⟩

set_option maxRecDepth 10000 in
theorem halted_at_last_version :
    (returningVerification.run "noon" endingTree).1 = .ok ⟨"noon", .perClass, ["1", "2"], [endingEntry]⟩ ∧
      endingEntry.halted ∧
      returningVerification.passedVersions (returningVerification.run "noon" endingTree).2.tree
        (Verification.pairs ["1", "2"] ["A"]) endingEntry.className = [] ∧
      ¬ endingEntry.LaterSkipped ["1", "2"] [] ∧
      endingEntry.render =
        Report.line "- A: There is a mappings issue with m();" ++
          String.join (["  Bytecode 1:", "  m();", "  \tn/X", "  Bytecode 2:", "  m();", "  \tn/Y",
            "  (later versions of A were not compared)"].map Report.line) := by
  refine ⟨by decide +kernel, rfl, by decide +kernel, ?_, by decide +kernel⟩
  rintro ⟨_, _, _, _, _, _, _, skipped⟩
  cases skipped

end BytecodeParity
