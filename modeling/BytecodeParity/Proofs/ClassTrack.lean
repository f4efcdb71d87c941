import BytecodeParity.Session
import BytecodeParity.Proofs.RollingBaseline

/-!
What a session holds of one class, and how it changes with the events of that class alone. A track
is consistent exactly when no record failed to be built and every record equals the one before it.
-/

set_option autoImplicit false

namespace BytecodeParity

open ClassRecord

namespace ClassReport

def offered (keepGoing : Bool) (earlier : List ClassRecord) (record : ClassRecord) (report : ClassReport) :
    ClassReport :=
  match Baselines.judge earlier.getLast? record with
  | .ok _ => { report with versions := report.versions ++ [record.version] }
  | .error divergence =>
      { report with
        divergences := report.divergences ++ [divergence.withHistory (earlier ++ [record])]
        halted := !keepGoing }

def failed (missing : MissingBody) (report : ClassReport) : ClassReport :=
  { report with buildFailures := report.buildFailures ++ [.ofMissing missing] }

theorem offered_class (keepGoing : Bool) (earlier : List ClassRecord) (record : ClassRecord)
    (report : ClassReport) : (report.offered keepGoing earlier record).className = report.className := by
  unfold offered
  split <;> rfl

theorem offered_consistent (keepGoing : Bool) (earlier : List ClassRecord) (record : ClassRecord)
    (report : ClassReport) :
    (report.offered keepGoing earlier record).isConsistent =
      (report.isConsistent && (Baselines.judge earlier.getLast? record).isOk) := by
  unfold offered
  split
  · next accepted judged => simp [judged, isConsistent, Except.isOk, Except.toBool]
  · next divergence judged => simp [judged, isConsistent, Except.isOk, Except.toBool]

theorem failed_consistent (missing : MissingBody) (report : ClassReport) :
    (report.failed missing).isConsistent = false := by
  simp [failed, isConsistent]

end ClassReport

namespace Session

inductive Event where
  | offered (record : ClassRecord)
  | failed (className : Option String) (missing : MissingBody)

namespace Event

def className? : Event → Option String
  | .offered record => record.className
  | .failed className _ => className

def record? : Event → Option ClassRecord
  | .offered record => some record
  | .failed _ _ => none

def ofOutcome (className : Option String) : Except MissingBody ClassRecord → Event
  | .ok record => .offered record
  | .error missing => .failed className missing

end Event

structure Track where
  records : List ClassRecord
  report : Option ClassReport

namespace Track

def initial : Track := ⟨[], none⟩

def apply (keepGoing : Bool) (track : Track) : Event → Track
  | .offered record =>
      ⟨track.records ++ [record],
        some ((track.report.getD (.empty record.className)).offered keepGoing track.records record)⟩
  | .failed className missing => { track with report := some ((track.report.getD (.empty className)).failed missing) }

-- A class without a report has nothing against it.
def consistent (track : Track) : Bool :=
  track.report.all ClassReport.isConsistent

def halted (track : Track) : Bool :=
  track.report.any (·.halted)

def follow (keepGoing : Bool) (track : Track) : List Event → Track
  | [] => track
  | event :: events =>
      if track.halted then follow keepGoing track events else follow keepGoing (track.apply keepGoing event) events

structure Sound (track : Track) : Prop where
  wellFormed : ∀ record ∈ track.records, record.WellFormed
  steady : track.consistent → Steady track.records
  haltedDiverges : track.halted → track.consistent = false

theorem initial_sound : initial.Sound where
  wellFormed := by simp [initial]
  steady _ := .nil
  haltedDiverges := by simp [initial, halted]

theorem report_default_consistent (track : Track) (className : Option String) :
    (track.report.getD (.empty className)).isConsistent = track.consistent := by
  unfold consistent
  cases track.report <;> rfl

theorem apply_offered_consistent_iff (keepGoing : Bool) (track : Track) (sound : track.Sound) (record : ClassRecord)
    (good : record.WellFormed) :
    (track.apply keepGoing (.offered record)).consistent ↔
      track.consistent ∧ ∀ baseline ∈ track.records.getLast?, baseline.StructurallyEqual record := by
  have judged := Baselines.judge_ok_iff track.records.getLast? record
    (fun baseline last => sound.wellFormed baseline (List.mem_of_getLast? last)) good
  rw [← judged]
  simp only [apply, consistent, Option.all_some, ClassReport.offered_consistent, Bool.and_eq_true]
  rw [report_default_consistent]
  rfl

theorem apply_failed_consistent (keepGoing : Bool) (track : Track) (className : Option String)
    (missing : MissingBody) : (track.apply keepGoing (.failed className missing)).consistent = false := by
  simp only [apply, consistent, Option.all_some, ClassReport.failed_consistent]

theorem apply_halted_diverges (keepGoing : Bool) (track : Track) (sound : track.Sound) (event : Event)
    (halted : (track.apply keepGoing event).halted) : (track.apply keepGoing event).consistent = false := by
  cases event with
  | failed className missing => exact apply_failed_consistent keepGoing track className missing
  | offered record =>
      simp only [apply, consistent, Option.all_some, ClassReport.offered_consistent, report_default_consistent,
        Bool.and_eq_false_iff]
      cases judged : Baselines.judge track.records.getLast? record with
      | error divergence => exact .inr rfl
      | ok accepted =>
          left
          apply sound.haltedDiverges
          simp only [apply, Track.halted, ClassReport.offered, judged, Option.any_some] at halted
          cases reported : track.report with
          | none => simp [reported, ClassReport.empty] at halted
          | some report => simpa [Track.halted, reported] using halted

theorem apply_sound (keepGoing : Bool) (track : Track) (sound : track.Sound) (event : Event)
    (good : ∀ record, event = .offered record → record.WellFormed) : (track.apply keepGoing event).Sound where
  wellFormed record member := by
    cases event with
    | failed className missing => exact sound.wellFormed record member
    | offered fresh =>
        rcases List.mem_append.mp member with earlier | last
        · exact sound.wellFormed record earlier
        · rw [List.mem_singleton.mp last]
          exact good fresh rfl
  steady consistent := by
    cases event with
    | failed className missing => simp [apply_failed_consistent] at consistent
    | offered record =>
        obtain ⟨before, agrees⟩ :=
          (apply_offered_consistent_iff keepGoing track sound record (good record rfl)).mp consistent
        exact (steady_concat_iff track.records record).mpr ⟨sound.steady before, agrees⟩
  haltedDiverges := apply_halted_diverges keepGoing track sound event

theorem follow_consistent_iff (keepGoing : Bool) (track : Track) (sound : track.Sound) (events : List Event)
    (good : ∀ record, .offered record ∈ events → record.WellFormed) :
    (track.follow keepGoing events).consistent ↔
      track.consistent ∧ (∀ event ∈ events, ∃ record, event = .offered record) ∧
        Steady (track.records ++ events.filterMap Event.record?) := by
  induction events generalizing track with
  | nil =>
      simp only [follow, List.filterMap_nil, List.append_nil, List.not_mem_nil, false_implies, implies_true, true_and]
      exact ⟨fun consistent => ⟨consistent, sound.steady consistent⟩, And.left⟩
  | cons event events ih =>
      have goodRest : ∀ record, .offered record ∈ events → record.WellFormed := fun record member =>
        good record (List.mem_cons_of_mem _ member)
      by_cases halted : track.halted
      · have broken := sound.haltedDiverges halted
        simp [follow, halted, ih track sound goodRest, broken]
      · have next := apply_sound keepGoing track sound event (fun record same => good record (by simp [same]))
        rw [follow, if_neg halted, ih _ next goodRest]
        cases event with
        | failed className missing =>
            rw [apply_failed_consistent]
            simp
        | offered record =>
            have goodRecord := good record (by simp)
            rw [apply_offered_consistent_iff keepGoing track sound record goodRecord]
            simp only [apply, List.filterMap_cons, Event.record?, List.forall_mem_cons, Event.offered.injEq, exists_eq',
              true_and, List.append_assoc, List.singleton_append]
            constructor
            · rintro ⟨⟨consistent, _⟩, offered, steady⟩
              exact ⟨consistent, offered, steady⟩
            · rintro ⟨consistent, offered, steady⟩
              have upToRecord : Steady (track.records ++ [record]) := by
                rw [List.append_cons] at steady
                exact steady.left_of_append
              exact ⟨⟨consistent, ((steady_concat_iff _ _).mp upToRecord).2⟩, offered, steady⟩

end Track

end Session

end BytecodeParity
