import BytecodeParity.Proofs.ClassTrack
import BytecodeParity.Proofs.FinalCheck

set_option autoImplicit false

namespace BytecodeParity.Session

open ClassRecord

def apply (session : Session) : Event → Session
  | .offered record => session.offer record
  | .failed className missing => session.fail className missing

def applyAll (session : Session) (events : List Event) : Session :=
  events.foldl apply session

def report? (session : Session) (className : Option String) : Option ClassReport :=
  session.classes.find? fun report => report.className = className

def track (session : Session) (className : Option String) : Track :=
  ⟨session.history className, session.report? className⟩

theorem find_update_report (target className : Option String) (change : ClassReport → ClassReport)
    (classes : List ClassReport) (keeps : ∀ report, (change report).className = report.className) :
    (updateReport target change classes).find? (fun report => report.className = className) =
      if className = target then
        some (change ((classes.find? fun report => report.className = target).getD (.empty target)))
      else classes.find? fun report => report.className = className := by
  have opened : (change (.empty target)).className = target := keeps (.empty target)
  induction classes with
  | nil =>
      by_cases same : className = target
      · subst same
        simp [updateReport, opened]
      · simp [updateReport, opened, same, Ne.symm same]
  | cons report rest ih =>
      by_cases hit : report.className = target
      · subst hit
        by_cases same : className = report.className
        · subst same
          simp [updateReport, keeps]
        · simp [updateReport, keeps, same, Ne.symm same]
      · by_cases found : report.className = className
        · subst found
          simp [updateReport, hit]
        · rw [updateReport, if_neg hit]
          simp only [List.find?_cons, found, hit, decide_false, ih]

theorem update_report_names (target : Option String) (change : ClassReport → ClassReport)
    (classes : List ClassReport) (keeps : ∀ report, (change report).className = report.className) :
    (updateReport target change classes).map (·.className) =
      if target ∈ classes.map (·.className) then classes.map (·.className)
      else classes.map (·.className) ++ [target] := by
  have opened : (change (.empty target)).className = target := keeps (.empty target)
  induction classes with
  | nil => simp [updateReport, opened]
  | cons report rest ih =>
      by_cases hit : report.className = target
      · simp [updateReport, hit, keeps]
      · rw [updateReport, if_neg hit, List.map_cons, ih]
        by_cases known : target ∈ rest.map (·.className)
        · have inAll : target ∈ (report :: rest).map (·.className) := List.mem_cons_of_mem _ known
          rw [if_pos known, if_pos inAll, List.map_cons]
        · have unknown : target ∉ (report :: rest).map (·.className) := by
            rw [List.map_cons, List.mem_cons]
            exact fun member => member.elim (Ne.symm hit) known
          rw [if_neg known, if_neg unknown, List.map_cons, List.cons_append]

-- Class names are searched one by one in the session. Each has one report only, so the search finds
-- the same report as the test over all of them.
theorem any_of_distinct (classes : List ClassReport) (distinct : (classes.map (·.className)).Nodup)
    (className : Option String) (test : ClassReport → Bool) :
    classes.any (fun report => report.className = className && test report) =
      (classes.find? fun report => report.className = className).any test := by
  induction classes with
  | nil => rfl
  | cons report rest ih =>
      rw [List.map_cons, List.nodup_cons] at distinct
      obtain ⟨notInRest, restDistinct⟩ := distinct
      by_cases same : report.className = className
      · have nothing : rest.any (fun other => other.className = className && test other) = false := by
          rw [List.any_eq_false]
          intro other member
          have different : other.className ≠ className := fun equal =>
            notInRest (same ▸ equal ▸ List.mem_map_of_mem member)
          simp [different]
        simp [same, nothing]
      · simpa [same] using ih restDistinct

structure Valid (session : Session) : Prop where
  distinct : (session.classes.map (·.className)).Nodup
  baseline : ∀ className, session.baselines.find? className = (session.history className).getLast?
  sound : ∀ className, (session.track className).Sound

theorem start_valid (keepGoing : Bool) : (start keepGoing).Valid where
  distinct := .nil
  baseline _ := rfl
  sound _ := Track.initial_sound

theorem offer_classes (session : Session) (valid : session.Valid) (record : ClassRecord) :
    (session.offer record).classes =
      updateReport record.className
        (ClassReport.offered session.keepGoing (session.history record.className) record) session.classes := by
  have judged := valid.baseline record.className
  have grown : session.seen.filter (fun other => other.className = record.className) ++ [record] =
      (session.seen ++ [record]).filter fun other => other.className = record.className := by simp
  unfold offer
  simp only [Baselines.accumulate, judged]
  split
  · next accepted outcome =>
      change updateReport _ _ _ = updateReport _ _ _
      congr 1
      funext report
      simp only [ClassReport.offered, outcome]
  · next divergence outcome =>
      change updateReport _ _ _ = updateReport _ _ _
      congr 1
      funext report
      simp only [ClassReport.offered, outcome]
      simp only [history, grown]

theorem offer_seen (session : Session) (record : ClassRecord) :
    (session.offer record).seen = session.seen ++ [record] := by
  unfold offer
  simp only
  split <;> rfl

theorem offer_baselines (session : Session) (record : ClassRecord) :
    (session.offer record).baselines = session.baselines.put record := by
  unfold offer
  simp only
  split <;> rfl

theorem offer_keep_going (session : Session) (record : ClassRecord) :
    (session.offer record).keepGoing = session.keepGoing := by
  unfold offer
  simp only
  split <;> rfl

theorem offer_history (session : Session) (record : ClassRecord) (className : Option String) :
    (session.offer record).history className =
      if record.className = className then session.history className ++ [record] else session.history className := by
  rw [history, offer_seen]
  exact of_class_concat className session.seen record

theorem fail_history (session : Session) (failedClass className : Option String) (missing : MissingBody) :
    (session.fail failedClass missing).history className = session.history className := rfl

theorem apply_keep_going (session : Session) (event : Event) :
    (session.apply event).keepGoing = session.keepGoing := by
  cases event with
  | offered record => exact offer_keep_going session record
  | failed className missing => rfl

theorem offer_report (session : Session) (valid : session.Valid) (record : ClassRecord) (className : Option String) :
    (session.offer record).report? className =
      if className = record.className then
        some (((session.report? record.className).getD (.empty record.className)).offered session.keepGoing
          (session.history record.className) record)
      else session.report? className := by
  rw [report?, offer_classes session valid]
  exact find_update_report record.className className _ session.classes (ClassReport.offered_class _ _ _)

theorem fail_report (session : Session) (failedClass className : Option String) (missing : MissingBody) :
    (session.fail failedClass missing).report? className =
      if className = failedClass then
        some (((session.report? failedClass).getD (.empty failedClass)).failed missing)
      else session.report? className :=
  find_update_report failedClass className (ClassReport.failed missing) session.classes fun _ => rfl

-- The frame law: an event is seen by the track of its own class alone.
theorem apply_track (session : Session) (valid : session.Valid) (event : Event) (className : Option String) :
    (session.apply event).track className =
      if event.className? = className then (session.track className).apply session.keepGoing event
      else session.track className := by
  cases event with
  | offered record =>
      rw [track, apply, offer_history, offer_report session valid, Event.className?]
      by_cases same : record.className = className
      · subst same
        rw [if_pos rfl, if_pos rfl, if_pos rfl]
        rfl
      · rw [if_neg same, if_neg (Ne.symm same), if_neg same]
        rfl
  | failed failedClass missing =>
      rw [track, apply, fail_history, fail_report, Event.className?]
      by_cases same : failedClass = className
      · subst same
        rw [if_pos rfl, if_pos rfl]
        rfl
      · rw [if_neg (Ne.symm same), if_neg same]
        rfl

theorem apply_distinct (session : Session) (valid : session.Valid) (event : Event) :
    ((session.apply event).classes.map (·.className)).Nodup := by
  have grown : ∀ target (change : ClassReport → ClassReport), (∀ report, (change report).className = report.className) →
      ((updateReport target change session.classes).map (·.className)).Nodup := by
    intro target change keeps
    rw [update_report_names target change session.classes keeps]
    split
    · exact valid.distinct
    · next unknown =>
        refine List.nodup_append.mpr ⟨valid.distinct, by simp, ?_⟩
        intro other member last lastMember same
        exact unknown (List.mem_singleton.mp lastMember ▸ same ▸ member)
  cases event with
  | offered record =>
      rw [apply, offer_classes session valid]
      exact grown _ _ (ClassReport.offered_class _ _ _)
  | failed className missing => exact grown className (ClassReport.failed missing) fun _ => rfl

theorem apply_baseline (session : Session) (valid : session.Valid) (event : Event) (className : Option String) :
    (session.apply event).baselines.find? className = ((session.apply event).history className).getLast? := by
  cases event with
  | failed failedClass missing => exact valid.baseline className
  | offered record =>
      rw [apply, offer_baselines, Baselines.find_put, offer_history]
      by_cases same : record.className = className
      · simp [same]
      · simp only [if_neg same, if_neg (Ne.symm same), valid.baseline className]

theorem apply_valid (session : Session) (valid : session.Valid) (event : Event)
    (good : ∀ record, event = .offered record → record.WellFormed) : (session.apply event).Valid where
  distinct := apply_distinct session valid event
  baseline := apply_baseline session valid event
  sound className := by
    rw [apply_track session valid]
    split
    · exact Track.apply_sound session.keepGoing _ (valid.sound className) event good
    · exact valid.sound className

theorem apply_all_valid (session : Session) (valid : session.Valid) (events : List Event)
    (good : ∀ record, .offered record ∈ events → record.WellFormed) : (session.applyAll events).Valid := by
  induction events generalizing session with
  | nil => exact valid
  | cons event events ih =>
      have next := apply_valid session valid event fun record same => good record (by simp [same])
      exact ih (session.apply event) next fun record member => good record (List.mem_cons_of_mem _ member)

theorem of_class_consistent_records (session : Session) (valid : session.Valid) (className : Option String) :
    ofClass className session.consistentRecords =
      if (session.report? className).any ClassReport.isConsistent then session.history className else [] := by
  have kept := any_of_distinct session.classes valid.distinct className ClassReport.isConsistent
  rw [report?, ← kept, ofClass, consistentRecords, List.filter_filter]
  split
  · next consistent =>
      apply List.filter_congr
      intro record _
      by_cases same : record.className = className
      · subst same
        rw [consistent, Bool.and_true]
      · simp [same]
  · next broken =>
      rw [List.filter_eq_nil_iff]
      intro record _
      by_cases same : record.className = className
      · subst same
        simpa using broken
      · simp [same]

theorem consistent_records_pass (session : Session) (valid : session.Valid) :
    Sanity.check session.consistentRecords := by
  rw [Sanity.check_iff_steady]
  intro className
  rw [of_class_consistent_records session valid]
  split
  · next consistent =>
      apply (valid.sound className).steady
      simp only [Track.consistent, track]
      cases found : session.report? className with
      | none => simp [found] at consistent
      | some report => simpa [found] using consistent
  · exact .nil

theorem finish_reports (session : Session) (valid : session.Valid) (generatedAt : String) (mode : RunMode)
    (versions : List String) :
    (session.finish generatedAt mode versions).1 = some ⟨generatedAt, mode, versions, session.classes⟩ := by
  rw [finish, if_pos (consistent_records_pass session valid)]

end BytecodeParity.Session
