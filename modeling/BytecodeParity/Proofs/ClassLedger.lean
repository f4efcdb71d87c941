import BytecodeParity.Proofs.ComparisonVerdict

/-!
The ledger of a class: what each of its events enters into the report, in the order of the events.
A comparison that keeps going enters the whole ledger, a comparison that halts enters it up to the
first divergence.
-/

set_option autoImplicit false

namespace BytecodeParity

open ClassRecord

inductive ReportEntry where
  | agreed (version : String)
  | diverged (divergence : Divergence)
  | failed (failure : BuildFailure)

namespace ReportEntry

def agreed? : ReportEntry → Option String
  | .agreed version => some version
  | .diverged _ => none
  | .failed _ => none

def divergence? : ReportEntry → Option Divergence
  | .agreed _ => none
  | .diverged divergence => some divergence
  | .failed _ => none

def failure? : ReportEntry → Option BuildFailure
  | .agreed _ => none
  | .diverged _ => none
  | .failed failure => some failure

def diverges : ReportEntry → Bool
  | .agreed _ => false
  | .diverged _ => true
  | .failed _ => false

def version : ReportEntry → String
  | .agreed version => version
  | .diverged divergence => divergence.version
  | .failed failure => failure.version

def ofRecord (earlier : List ClassRecord) (record : ClassRecord) : ReportEntry :=
  match Baselines.judge earlier.getLast? record with
  | .ok _ => .agreed record.version
  | .error divergence => .diverged (divergence.withHistory (earlier ++ [record]))

theorem with_history_versions (divergence : Divergence) (records : List ClassRecord) :
    (divergence.withHistory records).baselineVersion = divergence.baselineVersion ∧
      (divergence.withHistory records).version = divergence.version := by
  rw [Divergence.withHistory]
  cases divergence.attribution <;> exact ⟨rfl, rfl⟩

theorem of_record_version (earlier : List ClassRecord) (record : ClassRecord) :
    (ofRecord earlier record).version = record.version := by
  rw [ofRecord]
  cases earlier.getLast? with
  | none => rfl
  | some baseline =>
      simp only [Baselines.judge]
      cases locateDivergence baseline record with
      | none => rfl
      | some attribution => exact (with_history_versions _ _).2

theorem of_record_built (earlier : List ClassRecord) (record : ClassRecord) :
    (ofRecord earlier record).failure? = none := by
  rw [ofRecord]
  cases Baselines.judge earlier.getLast? record <;> rfl

theorem of_record_equal (earlier : List ClassRecord) (baseline record : ClassRecord)
    (last : earlier.getLast? = some baseline) (goodBaseline : baseline.WellFormed) (goodRecord : record.WellFormed)
    (equal : baseline.StructurallyEqual record) : ofRecord earlier record = .agreed record.version := by
  rw [ofRecord, last, Baselines.judge, (locate_none_iff baseline record goodBaseline goodRecord).mpr equal]

theorem of_record_different (earlier : List ClassRecord) (baseline record : ClassRecord)
    (last : earlier.getLast? = some baseline) (goodBaseline : baseline.WellFormed) (goodRecord : record.WellFormed)
    (different : ¬ baseline.StructurallyEqual record) :
    ∃ divergence, ofRecord earlier record = .diverged divergence ∧
      divergence.baselineVersion = baseline.version ∧ divergence.version = record.version := by
  cases located : locateDivergence baseline record with
  | none => exact absurd ((locate_none_iff baseline record goodBaseline goodRecord).mp located) different
  | some attribution =>
      refine ⟨_, by rw [ofRecord, last, Baselines.judge, located], ?_⟩
      exact with_history_versions (.between baseline record attribution) _

def reached (keepGoing : Bool) : List ReportEntry → List ReportEntry
  | [] => []
  | entry :: entries => entry :: if entry.diverges && !keepGoing then [] else reached keepGoing entries

theorem reached_all (entries : List ReportEntry) : reached true entries = entries := by
  induction entries with
  | nil => rfl
  | cons entry entries ih => simp [reached, ih]

theorem reached_agreed (entries : List ReportEntry) :
    (reached false entries).filterMap agreed? = (entries.takeWhile fun entry => !entry.diverges).filterMap agreed? := by
  induction entries with
  | nil => rfl
  | cons entry entries ih => cases entry <;> simp_all [reached, List.filterMap_cons, diverges, agreed?]

theorem reached_failures (entries : List ReportEntry) :
    (reached false entries).filterMap failure? =
      (entries.takeWhile fun entry => !entry.diverges).filterMap failure? := by
  induction entries with
  | nil => rfl
  | cons entry entries ih => cases entry <;> simp_all [reached, List.filterMap_cons, diverges, failure?]

theorem reached_divergences (entries : List ReportEntry) :
    (reached false entries).filterMap divergence? = (entries.filterMap divergence?).take 1 := by
  induction entries with
  | nil => rfl
  | cons entry entries ih => cases entry <;> simp_all [reached, List.filterMap_cons, diverges, divergence?]

theorem reached_diverges (entries : List ReportEntry) :
    (reached false entries).any diverges = !(entries.filterMap divergence?).isEmpty := by
  induction entries with
  | nil => rfl
  | cons entry entries ih => cases entry <;> simp_all [reached, List.filterMap_cons, diverges, divergence?]

theorem sorted_perm (entries : List ReportEntry) :
    (entries.filterMap agreed? ++ (entries.filterMap divergence?).map (·.version) ++
      (entries.filterMap failure?).map (·.version)).Perm (entries.map version) := by
  induction entries with
  | nil => exact .nil
  | cons entry entries ih =>
      rw [List.filterMap_cons, List.filterMap_cons, List.filterMap_cons, List.map_cons]
      cases entry with
      | agreed first => exact ih.cons first
      | diverged divergence =>
          have placed := ih.cons divergence.version
          rw [List.append_assoc] at placed
          simp only [agreed?, divergence?, failure?, version, List.map_cons, List.cons_append, List.append_assoc]
          exact List.perm_middle.trans placed
      | failed failure => exact List.perm_middle.trans (ih.cons failure.version)

end ReportEntry

namespace ClassReport

def enter (keepGoing : Bool) (report : ClassReport) : ReportEntry → ClassReport
  | .agreed version => { report with versions := report.versions ++ [version] }
  | .diverged divergence =>
      { report with divergences := report.divergences ++ [divergence], halted := !keepGoing }
  | .failed failure => { report with buildFailures := report.buildFailures ++ [failure] }

def enterAll (keepGoing : Bool) (report : ClassReport) (entries : List ReportEntry) : ClassReport :=
  entries.foldl (enter keepGoing) report

section Entered

variable (keepGoing : Bool) (report : ClassReport) (entries : List ReportEntry)

theorem enter_all_class : (report.enterAll keepGoing entries).className = report.className := by
  unfold enterAll
  induction entries generalizing report with
  | nil => rfl
  | cons entry entries ih =>
      rw [List.foldl_cons, ih]
      cases entry <;> rfl

theorem enter_all_versions :
    (report.enterAll keepGoing entries).versions = report.versions ++ entries.filterMap ReportEntry.agreed? := by
  unfold enterAll
  induction entries generalizing report with
  | nil => simp
  | cons entry entries ih =>
      rw [List.foldl_cons, ih, List.filterMap_cons]
      cases entry <;> simp [enter, ReportEntry.agreed?]

theorem enter_all_divergences :
    (report.enterAll keepGoing entries).divergences =
      report.divergences ++ entries.filterMap ReportEntry.divergence? := by
  unfold enterAll
  induction entries generalizing report with
  | nil => simp
  | cons entry entries ih =>
      rw [List.foldl_cons, ih, List.filterMap_cons]
      cases entry <;> simp [enter, ReportEntry.divergence?]

theorem enter_all_failures :
    (report.enterAll keepGoing entries).buildFailures =
      report.buildFailures ++ entries.filterMap ReportEntry.failure? := by
  unfold enterAll
  induction entries generalizing report with
  | nil => simp
  | cons entry entries ih =>
      rw [List.foldl_cons, ih, List.filterMap_cons]
      cases entry <;> simp [enter, ReportEntry.failure?]

theorem enter_all_halted :
    (report.enterAll keepGoing entries).halted =
      if entries.any ReportEntry.diverges then !keepGoing else report.halted := by
  unfold enterAll
  induction entries generalizing report with
  | nil => rfl
  | cons entry entries ih =>
      rw [List.foldl_cons, ih]
      cases entry <;> simp [enter, ReportEntry.diverges]

end Entered

structure Lists (entries : List ReportEntry) (report : ClassReport) : Prop where
  versions : report.versions = entries.filterMap ReportEntry.agreed?
  divergences : report.divergences = entries.filterMap ReportEntry.divergence?
  buildFailures : report.buildFailures = entries.filterMap ReportEntry.failure?

theorem enter_all_lists (keepGoing : Bool) (className : Option String) (entries : List ReportEntry) :
    Lists entries ((empty className).enterAll keepGoing entries) where
  versions := enter_all_versions keepGoing (empty className) entries
  divergences := enter_all_divergences keepGoing (empty className) entries
  buildFailures := enter_all_failures keepGoing (empty className) entries

end ClassReport

namespace Session

namespace Event

def missing? : Event → Option MissingBody
  | .offered _ => none
  | .failed _ missing => some missing

def version : Event → String
  | .offered record => record.version
  | .failed _ missing => missing.version

def entry (earlier : List ClassRecord) : Event → ReportEntry
  | .offered record => .ofRecord earlier record
  | .failed _ missing => .failed (.ofMissing missing)

end Event

def ledger (earlier : List ClassRecord) : List Event → List ReportEntry
  | [] => []
  | event :: events => event.entry earlier :: ledger (earlier ++ event.record?.toList) events

theorem ledger_offered (earlier : List ClassRecord) (record : ClassRecord) (events : List Event) :
    ledger earlier (.offered record :: events) =
      .ofRecord earlier record :: ledger (earlier ++ [record]) events := rfl

theorem ledger_failed (earlier : List ClassRecord) (className : Option String) (missing : MissingBody)
    (events : List Event) :
    ledger earlier (.failed className missing :: events) = .failed (.ofMissing missing) :: ledger earlier events := by
  rw [ledger, Event.record?, Option.toList_none, List.append_nil]
  rfl

namespace Track

theorem apply_records (keepGoing : Bool) (track : Track) (event : Event) :
    (track.apply keepGoing event).records = track.records ++ event.record?.toList := by
  cases event with
  | offered record => rfl
  | failed className missing => simp [apply, Event.record?]

theorem apply_report (keepGoing : Bool) (track : Track) (event : Event) :
    (track.apply keepGoing event).report =
      some ((track.report.getD (.empty event.className?)).enter keepGoing (event.entry track.records)) := by
  cases event with
  | failed className missing => rfl
  | offered record =>
      simp only [apply, ClassReport.offered, Event.entry, ReportEntry.ofRecord]
      cases Baselines.judge track.records.getLast? record <;> rfl

theorem apply_halted (keepGoing : Bool) (track : Track) (event : Event) (running : track.halted = false) :
    (track.apply keepGoing event).halted = ((event.entry track.records).diverges && !keepGoing) := by
  have fresh : (track.report.getD (.empty event.className?)).halted = false := by
    cases reported : track.report with
    | none => rfl
    | some report => simpa [halted, reported] using running
  rw [halted, apply_report, Option.any_some]
  cases event.entry track.records <;> simp [ClassReport.enter, ReportEntry.diverges, fresh]

theorem apply_running (track : Track) (event : Event) (running : track.halted = false) :
    (track.apply true event).halted = false := by
  rw [apply_halted true track event running, Bool.not_true, Bool.and_false]

theorem follow_halted (keepGoing : Bool) (track : Track) (events : List Event) (halted : track.halted) :
    track.follow keepGoing events = track := by
  induction events with
  | nil => rfl
  | cons event events ih => rw [follow, if_pos halted, ih]

theorem follow_reported (keepGoing : Bool) (track : Track) (events : List Event) :
    (track.follow keepGoing events).report.isSome ↔ track.report.isSome ∨ events ≠ [] := by
  induction events generalizing track with
  | nil => simp [follow]
  | cons event events ih =>
      rw [follow]
      by_cases halted : track.halted
      · have reported : track.report.isSome := by
          cases held : track.report with
          | none => simp [Track.halted, held] at halted
          | some report => rfl
        rw [if_pos halted, follow_halted keepGoing track events halted]
        simp [reported]
      · rw [if_neg halted, ih, apply_report]
        simp

-- Each event of a running class is entered, and the class halts when the entry of a divergence halts it.
theorem follow_entered (keepGoing : Bool) (track : Track) (className : Option String) (events : List Event)
    (own : ∀ event ∈ events, event.className? = className) (running : track.halted = false) :
    (track.follow keepGoing events).report.getD (.empty className) =
      (track.report.getD (.empty className)).enterAll keepGoing
        (ReportEntry.reached keepGoing (ledger track.records events)) := by
  induction events generalizing track with
  | nil => rfl
  | cons event events ih =>
      have restOwn : ∀ other ∈ events, other.className? = className := fun other member =>
        own other (List.mem_cons_of_mem _ member)
      have entered : (track.apply keepGoing event).report.getD (.empty className) =
          (track.report.getD (.empty className)).enter keepGoing (event.entry track.records) := by
        rw [apply_report, own event List.mem_cons_self, Option.getD_some]
      have halts := apply_halted keepGoing track event running
      rw [follow, if_neg (by simp [running]), ledger, ReportEntry.reached]
      by_cases stops : ((event.entry track.records).diverges && !keepGoing) = true
      · rw [if_pos stops, follow_halted keepGoing _ events (halts.trans stops), entered]
        rfl
      · rw [if_neg stops, ih _ restOwn (halts.trans (by simpa using stops)), entered, apply_records]
        rfl

theorem follow_report_eq (keepGoing : Bool) (className : Option String) (events : List Event)
    (own : ∀ event ∈ events, event.className? = className) (report : ClassReport)
    (kept : (initial.follow keepGoing events).report = some report) :
    report =
      (ClassReport.empty className).enterAll keepGoing (ReportEntry.reached keepGoing (ledger [] events)) := by
  have entered := follow_entered keepGoing initial className events own rfl
  rwa [kept] at entered

end Track

theorem ledger_versions (earlier : List ClassRecord) (events : List Event) :
    (ledger earlier events).map ReportEntry.version = events.map Event.version := by
  induction events generalizing earlier with
  | nil => rfl
  | cons event events ih =>
      rw [ledger, List.map_cons, List.map_cons, ih]
      cases event with
      | offered record => rw [Event.entry, ReportEntry.of_record_version, Event.version]
      | failed className missing => rfl

theorem ledger_failures (earlier : List ClassRecord) (events : List Event) :
    (ledger earlier events).filterMap ReportEntry.failure? = (events.filterMap Event.missing?).map .ofMissing := by
  induction events generalizing earlier with
  | nil => rfl
  | cons event events ih =>
      cases event with
      | offered record =>
          rw [ledger_offered, List.filterMap_cons_none (ReportEntry.of_record_built earlier record), ih]
          rfl
      | failed className missing =>
          rw [ledger_failed]
          exact congrArg _ (ih earlier)

end Session

namespace ClassRecord

def neighbours (records : List ClassRecord) : List (ClassRecord × ClassRecord) :=
  records.zip records.tail

def agreeing (records : List ClassRecord) : List (ClassRecord × ClassRecord) :=
  (neighbours records).filter fun pair => pair.1.StructurallyEqual pair.2

def differing (records : List ClassRecord) : List (ClassRecord × ClassRecord) :=
  (neighbours records).filter fun pair => ¬ pair.1.StructurallyEqual pair.2

theorem agreeing_cons (baseline record : ClassRecord) (records : List ClassRecord) :
    agreeing (baseline :: record :: records) =
      if baseline.StructurallyEqual record then (baseline, record) :: agreeing (record :: records)
      else agreeing (record :: records) := by
  by_cases equal : baseline.StructurallyEqual record <;> simp [agreeing, neighbours, equal]

theorem differing_cons (baseline record : ClassRecord) (records : List ClassRecord) :
    differing (baseline :: record :: records) =
      if baseline.StructurallyEqual record then differing (record :: records)
      else (baseline, record) :: differing (record :: records) := by
  by_cases equal : baseline.StructurallyEqual record <;> simp [differing, neighbours, equal]

end ClassRecord

namespace Session

-- The baseline is the last record that was built; events without a record leave it as it is.
theorem ledger_after (earlier : List ClassRecord) (baseline : ClassRecord) (events : List Event)
    (last : earlier.getLast? = some baseline) (goodBaseline : baseline.WellFormed)
    (good : ∀ record, .offered record ∈ events → record.WellFormed) :
    (ledger earlier events).filterMap ReportEntry.agreed? =
        (agreeing (baseline :: events.filterMap Event.record?)).map (·.2.version) ∧
      ((ledger earlier events).filterMap ReportEntry.divergence?).map (fun divergence =>
          (divergence.baselineVersion, divergence.version)) =
        (differing (baseline :: events.filterMap Event.record?)).map fun pair => (pair.1.version, pair.2.version) := by
  induction events generalizing earlier baseline with
  | nil => exact ⟨rfl, rfl⟩
  | cons event events ih =>
      have goodRest : ∀ record, .offered record ∈ events → record.WellFormed := fun record member =>
        good record (List.mem_cons_of_mem _ member)
      cases event with
      | failed className missing =>
          rw [ledger_failed]
          exact ih earlier baseline last goodBaseline goodRest
      | offered record =>
          have goodRecord := good record List.mem_cons_self
          obtain ⟨agreed, diverged⟩ := ih (earlier ++ [record]) record List.getLast?_concat goodRecord goodRest
          rw [ledger_offered, List.filterMap_cons_some (f := Event.record?) rfl, agreeing_cons, differing_cons]
          by_cases equal : baseline.StructurallyEqual record
          · rw [if_pos equal, if_pos equal,
              ReportEntry.of_record_equal earlier baseline record last goodBaseline goodRecord equal]
            exact ⟨congrArg _ agreed, diverged⟩
          · obtain ⟨divergence, entered, before, after⟩ :=
              ReportEntry.of_record_different earlier baseline record last goodBaseline goodRecord equal
            rw [if_neg equal, if_neg equal, entered]
            refine ⟨agreed, ?_⟩
            rw [List.map_cons, ← diverged, ← before, ← after]
            rfl

theorem ledger_from_start (events : List Event) (good : ∀ record, .offered record ∈ events → record.WellFormed) :
    (ledger [] events).filterMap ReportEntry.agreed? =
        (events.filterMap Event.record?).head?.toList.map (·.version) ++
          (agreeing (events.filterMap Event.record?)).map (·.2.version) ∧
      ((ledger [] events).filterMap ReportEntry.divergence?).map (fun divergence =>
          (divergence.baselineVersion, divergence.version)) =
        (differing (events.filterMap Event.record?)).map fun pair => (pair.1.version, pair.2.version) := by
  induction events with
  | nil => exact ⟨rfl, rfl⟩
  | cons event events ih =>
      have goodRest : ∀ record, .offered record ∈ events → record.WellFormed := fun record member =>
        good record (List.mem_cons_of_mem _ member)
      cases event with
      | failed className missing =>
          rw [ledger_failed]
          exact ih goodRest
      | offered record =>
          have goodRecord := good record List.mem_cons_self
          obtain ⟨agreed, diverged⟩ := ledger_after [record] record events rfl goodRecord goodRest
          exact ⟨congrArg _ agreed, diverged⟩

end Session

end BytecodeParity
