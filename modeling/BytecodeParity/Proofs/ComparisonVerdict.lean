import BytecodeParity.Comparison
import BytecodeParity.Proofs.SessionTrack

set_option autoImplicit false

namespace BytecodeParity.Session

open ClassRecord

variable {ε α : Type}

def event? : Except ε Reading → Option Event
  | .ok (.built scope build) => some (.ofOutcome scope.className? build.outcome)
  | _ => none

structure Faithful (className : α → Option String) (read : α → Except ε Reading) : Prop where
  scope : ∀ input scope build, read input = .ok (.built scope build) → scope.className? = className input
  constructed : ∀ input scope build record, read input = .ok (.built scope build) → build.outcome = .ok record →
    Constructed record ∧ record.className = className input

def Gives (read : α → Except ε Reading) (input : α) (record : ClassRecord) : Prop :=
  ∃ scope build, read input = .ok (.built scope build) ∧ build.outcome = .ok record

def Agree (read : α → Except ε Reading) (inputs : List α) : Prop :=
  (∀ input ∈ inputs, ∀ scope build, read input = .ok (.built scope build) → ∃ record, build.outcome = .ok record) ∧
    ∀ a ∈ inputs, ∀ b ∈ inputs, ∀ recordA recordB, Gives read a recordA → Gives read b recordB →
      recordA.StructurallyEqual recordB

theorem agree_of_subset (read : α → Except ε Reading) (part whole : List α) (subset : ∀ input ∈ part, input ∈ whole)
    (agree : Agree read whole) : Agree read part :=
  ⟨fun input member => agree.1 input (subset input member),
    fun a memberA b memberB => agree.2 a (subset a memberA) b (subset b memberB)⟩

theorem faithful_event (className : α → Option String) (read : α → Except ε Reading)
    (faithful : Faithful className read) (input : α) (event : Event) (brings : event? (read input) = some event) :
    event.className? = className input ∧ ∀ record, event = .offered record → Constructed record := by
  cases readEq : read input with
  | error error => simp [event?, readEq] at brings
  | ok reading =>
      cases reading with
      | absent version className => simp [event?, readEq] at brings
      | built scope build =>
          simp only [event?, readEq, Option.some.injEq] at brings
          subst brings
          cases outcome : build.outcome with
          | ok record =>
              obtain ⟨constructed, same⟩ := faithful.constructed input scope build record readEq outcome
              refine ⟨same, fun other equal => ?_⟩
              cases equal
              exact constructed
          | error missing =>
              exact ⟨faithful.scope input scope build readEq, fun other equal => by cases equal⟩

theorem note_valid (session : Session) (valid : session.Valid) (entries : List LogEntry) :
    (session.note entries).Valid :=
  ⟨valid.distinct, valid.baseline, valid.sound⟩

theorem take_built (session : Session) (scope : BuildScope) (build : Build) :
    session.take (.built scope build) =
      (session.note (buildEntries scope build)).apply
        (.ofOutcome scope.className? build.outcome) := by
  rw [take]
  cases build.outcome <;> rfl

theorem is_halted_eq (session : Session) (valid : session.Valid) (className : Option String) :
    session.isHalted className = (session.track className).halted :=
  any_of_distinct session.classes valid.distinct className (·.halted)

theorem take_keep_going (session : Session) (reading : Reading) :
    (session.take reading).keepGoing = session.keepGoing := by
  cases reading with
  | absent version className => rfl
  | built scope build => rw [take_built, apply_keep_going]; rfl

theorem take_valid (session : Session) (valid : session.Valid) (reading : Reading)
    (good : ∀ event record, event? (ε := ε) (.ok reading) = some event → event = .offered record →
      record.WellFormed) : (session.take reading).Valid := by
  cases reading with
  | absent version className => exact note_valid session valid _
  | built scope build =>
      rw [take_built]
      exact apply_valid _ (note_valid session valid _) _ fun record offered => good _ record rfl offered

def classEvents (read : α → Except ε Reading) (inputs : List α) (className : Option String) : List Event :=
  (inputs.filterMap fun input => event? (read input)).filter fun event => event.className? = className

theorem class_events_cons (read : α → Except ε Reading) (input : α) (inputs : List α) (className : Option String) :
    classEvents read (input :: inputs) className =
      match event? (read input) with
      | none => classEvents read inputs className
      | some event =>
          if event.className? = className then event :: classEvents read inputs className
          else classEvents read inputs className := by
  cases brings : event? (read input) with
  | none => simp [classEvents, brings]
  | some event => by_cases same : event.className? = className <;> simp [classEvents, brings, same]

theorem take_track (session : Session) (valid : session.Valid) (reading : Reading) (className : Option String) :
    (session.take reading).track className =
      match event? (ε := ε) (.ok reading) with
      | none => session.track className
      | some event =>
          if event.className? = className then (session.track className).apply session.keepGoing event
          else session.track className := by
  cases reading with
  | absent version absentClass => rfl
  | built scope build =>
      rw [take_built]
      exact apply_track _ (note_valid session valid _) _ className

variable {className : α → Option String} {read : α → Except ε Reading}

theorem compare_valid (faithful : Faithful className read) (inputs : List α) (session : Session)
    (valid : session.Valid) : (compare className read inputs session).2.Valid := by
  induction inputs generalizing session with
  | nil => exact valid
  | cons input inputs ih =>
      rw [compare]
      split
      · exact ih session valid
      · cases readEq : read input with
        | error error => exact valid
        | ok reading =>
            apply ih
            apply take_valid (ε := ε) session valid
            intro event record brings offered
            exact constructed_well_formed record
              ((faithful_event className read faithful input event (readEq ▸ brings)).2 record offered)

theorem read_valid (faithful : Faithful className read) (session : Session) (valid : session.Valid) (input : α)
    (reading : Reading) (running : ¬ session.isHalted (className input)) (readEq : read input = .ok reading) :
    (session.take reading).Valid := by
  simpa [compare, running, readEq] using compare_valid faithful [input] session valid

theorem compare_error (inputs : List α) (session : Session) (error : ε)
    (failed : (compare className read inputs session).1 = .error error) :
    ∃ input ∈ inputs, read input = .error error := by
  induction inputs generalizing session with
  | nil => cases failed
  | cons input inputs ih =>
      rw [compare] at failed
      split at failed
      · obtain ⟨other, member, reading⟩ := ih session failed
        exact ⟨other, List.mem_cons_of_mem _ member, reading⟩
      · cases readEq : read input with
        | error cause =>
            rw [readEq] at failed
            cases failed
            exact ⟨input, List.mem_cons_self, readEq⟩
        | ok reading =>
            rw [readEq] at failed
            obtain ⟨other, member, otherReading⟩ := ih _ failed
            exact ⟨other, List.mem_cons_of_mem _ member, otherReading⟩

theorem compare_cons_done {input : α} {inputs : List α} {session last : Session}
    (done : compare className read (input :: inputs) session = (.ok (), last)) :
    (session.isHalted (className input) ∧ compare className read inputs session = (.ok (), last)) ∨
      (¬ session.isHalted (className input) ∧ ∃ reading, read input = .ok reading ∧
        compare className read inputs (session.take reading) = (.ok (), last)) := by
  rw [compare] at done
  split at done
  · next halted => exact .inl ⟨halted, done⟩
  · next running =>
      cases readEq : read input with
      | error error =>
          rw [readEq] at done
          cases done
      | ok reading =>
          rw [readEq] at done
          exact .inr ⟨running, reading, rfl, done⟩

-- The track of a class after the comparison depends on the inputs of that class alone.
theorem compare_track (faithful : Faithful className read) (inputs : List α) (session last : Session)
    (valid : session.Valid) (done : compare className read inputs session = (.ok (), last)) (name : Option String) :
    last.track name = (session.track name).follow session.keepGoing (classEvents read inputs name) := by
  induction inputs generalizing session with
  | nil =>
      rw [compare] at done
      cases done
      rfl
  | cons input inputs ih =>
      rw [class_events_cons]
      rcases compare_cons_done done with ⟨halted, done⟩ | ⟨running, reading, readEq, done⟩
      · -- The track of the class passes the event over as the comparison does, and other tracks do not see it.
        rw [is_halted_eq session valid] at halted
        rw [ih session valid done]
        cases brings : event? (read input) with
        | none => rfl
        | some event =>
            obtain ⟨same, _⟩ := faithful_event className read faithful input event brings
            by_cases own : event.className? = name
            · rw [← same, own] at halted
              simp only [if_pos own, Track.follow, if_pos halted]
            · simp only [if_neg own]
      · have next := read_valid faithful session valid input reading running readEq
        rw [is_halted_eq session valid] at running
        rw [readEq, ih (session.take reading) next done, take_keep_going, take_track (ε := ε) session valid reading]
        cases brings : event? (ε := ε) (.ok reading) with
        | none => rfl
        | some event =>
            obtain ⟨same, _⟩ := faithful_event className read faithful input event (readEq ▸ brings)
            by_cases own : event.className? = name
            · rw [← same, own] at running
              simp only [if_pos own, Track.follow, if_neg running]
            · simp only [if_neg own]

theorem compare_from_start (faithful : Faithful className read) (inputs : List α) (keepGoing : Bool)
    (last : Session) (done : compare className read inputs (start keepGoing) = (.ok (), last)) :
    last.Valid ∧ ∀ name, last.track name = Track.initial.follow keepGoing (classEvents read inputs name) := by
  constructor
  · simpa [done] using compare_valid faithful inputs (start keepGoing) (start_valid keepGoing)
  · exact compare_track faithful inputs (start keepGoing) last (start_valid keepGoing) done

theorem report_of_mem (session : Session) (valid : session.Valid) (report : ClassReport)
    (member : report ∈ session.classes) : session.report? report.className = some report := by
  have distinct := valid.distinct
  revert distinct member
  rw [report?]
  induction session.classes with
  | nil => simp
  | cons first rest ih =>
      intro member distinct
      rw [List.map_cons, List.nodup_cons] at distinct
      rcases List.mem_cons.mp member with same | later
      · simp [same]
      · have different : first.className ≠ report.className := fun equal =>
          distinct.1 (equal ▸ List.mem_map_of_mem later)
        simpa [different] using ih later distinct.2

theorem all_consistent_iff (session : Session) (valid : session.Valid) :
    session.classes.all ClassReport.isConsistent ↔ ∀ className, (session.track className).consistent := by
  rw [List.all_eq_true]
  constructor
  · intro clean className
    simp only [Track.consistent, track]
    cases found : session.report? className with
    | none => rfl
    | some report => exact clean report (List.mem_of_find?_eq_some found)
  · intro consistent report member
    simpa [Track.consistent, track, report_of_mem session valid report member] using consistent report.className

theorem event_offered_iff (read : α → Except ε Reading) (input : α) (record : ClassRecord) :
    event? (read input) = some (.offered record) ↔ Gives read input record := by
  constructor
  · intro brings
    cases readEq : read input with
    | error error => simp [event?, readEq] at brings
    | ok reading =>
        cases reading with
        | absent version absentClass => simp [event?, readEq] at brings
        | built scope build =>
            cases outcome : build.outcome with
            | error missing => simp [event?, readEq, outcome, Event.ofOutcome] at brings
            | ok built =>
                simp only [event?, readEq, outcome, Event.ofOutcome, Option.some.injEq, Event.offered.injEq] at brings
                exact ⟨scope, build, readEq, brings ▸ outcome⟩
  · rintro ⟨scope, build, readEq, outcome⟩
    simp only [event?, readEq, outcome, Event.ofOutcome]

theorem mem_class_events_iff (faithful : Faithful className read) (inputs : List α) (name : Option String)
    (event : Event) :
    event ∈ classEvents read inputs name ↔
      ∃ input ∈ inputs.filter (fun input => className input = name), event? (read input) = some event := by
  simp only [classEvents, List.mem_filter, List.mem_filterMap, decide_eq_true_eq]
  constructor
  · rintro ⟨⟨input, member, brings⟩, own⟩
    exact ⟨input, ⟨member, (faithful_event className read faithful input event brings).1 ▸ own⟩, brings⟩
  · rintro ⟨input, ⟨member, own⟩, brings⟩
    exact ⟨⟨input, member, brings⟩, (faithful_event className read faithful input event brings).1.trans own⟩

theorem mem_class_records_iff (faithful : Faithful className read) (inputs : List α) (name : Option String)
    (record : ClassRecord) :
    record ∈ (classEvents read inputs name).filterMap Event.record? ↔
      ∃ input ∈ inputs.filter (fun input => className input = name), Gives read input record := by
  simp only [List.mem_filterMap, mem_class_events_iff faithful]
  constructor
  · rintro ⟨event, ⟨input, member, brings⟩, holds⟩
    cases event with
    | failed failedClass missing => cases holds
    | offered built =>
        cases holds
        exact ⟨input, member, (event_offered_iff read input record).mp brings⟩
  · rintro ⟨input, member, gives⟩
    exact ⟨.offered record, ⟨input, member, (event_offered_iff read input record).mpr gives⟩, rfl⟩

theorem all_offered_iff (faithful : Faithful className read) (inputs : List α) (name : Option String) :
    (∀ event ∈ classEvents read inputs name, ∃ record, event = .offered record) ↔
      ∀ input ∈ inputs.filter (fun input => className input = name), ∀ scope build,
        read input = .ok (.built scope build) → ∃ record, build.outcome = .ok record := by
  simp only [mem_class_events_iff faithful]
  constructor
  · intro offered input member scope build readEq
    have brings : event? (read input) = some (.ofOutcome scope.className? build.outcome) := by
      rw [readEq]
      rfl
    obtain ⟨record, same⟩ := offered _ ⟨input, member, brings⟩
    cases outcome : build.outcome with
    | ok built => exact ⟨built, rfl⟩
    | error missing => simp [outcome, Event.ofOutcome] at same
  · rintro built event ⟨input, member, brings⟩
    cases readEq : read input with
    | error error => simp [event?, readEq] at brings
    | ok reading =>
        cases reading with
        | absent version absentClass => simp [event?, readEq] at brings
        | built scope build =>
            obtain ⟨record, outcome⟩ := built input member scope build readEq
            simp only [event?, readEq, outcome, Event.ofOutcome, Option.some.injEq] at brings
            exact ⟨record, brings.symm⟩

theorem class_events_agree_iff (faithful : Faithful className read) (inputs : List α) (name : Option String) :
    ((∀ event ∈ classEvents read inputs name, ∃ record, event = .offered record) ∧
        Steady ((classEvents read inputs name).filterMap Event.record?)) ↔
      Agree read (inputs.filter fun input => className input = name) := by
  rw [Agree, all_offered_iff faithful, steady_iff_pairwise]
  simp only [mem_class_records_iff faithful]
  refine and_congr_right fun _ => ⟨?_, ?_⟩
  · intro equal a memberA b memberB recordA recordB givesA givesB
    exact equal recordA ⟨a, memberA, givesA⟩ recordB ⟨b, memberB, givesB⟩
  · rintro equal recordA ⟨a, memberA, givesA⟩ recordB ⟨b, memberB, givesB⟩
    exact equal a memberA b memberB recordA recordB givesA givesB

theorem class_events_good (faithful : Faithful className read) (inputs : List α) (name : Option String) :
    ∀ record, .offered record ∈ classEvents read inputs name → record.WellFormed := by
  intro record member
  obtain ⟨input, _, brings⟩ := (mem_class_events_iff faithful inputs name _).mp member
  exact constructed_well_formed record ((faithful_event className read faithful input _ brings).2 record rfl)

theorem compare_consistent_iff (faithful : Faithful className read) (inputs : List α) (keepGoing : Bool)
    (last : Session) (done : compare className read inputs (start keepGoing) = (.ok (), last)) :
    last.classes.all ClassReport.isConsistent ↔
      ∀ name, Agree read (inputs.filter fun input => className input = name) := by
  obtain ⟨valid, followed⟩ := compare_from_start faithful inputs keepGoing last done
  rw [all_consistent_iff last valid]
  refine forall_congr' fun name => ?_
  rw [followed name, Track.follow_consistent_iff _ _ Track.initial_sound _ (class_events_good faithful inputs name),
    ← class_events_agree_iff faithful]
  have untouched : Track.initial.consistent := rfl
  simp only [untouched, true_and]
  rfl

end BytecodeParity.Session
