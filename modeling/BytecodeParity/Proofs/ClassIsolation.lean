import BytecodeParity.Proofs.RunReport

set_option autoImplicit false

namespace BytecodeParity

open ClassRecord

namespace Session

def ownEvents (className : Option String) (events : List Event) : List Event :=
  events.filter fun event => event.className? = className

def follow (session : Session) : List Event → Session
  | [] => session
  | event :: events =>
      if session.isHalted event.className? then session.follow events else (session.apply event).follow events

theorem follow_track (session : Session) (valid : session.Valid) (events : List Event)
    (good : ∀ record, .offered record ∈ events → record.WellFormed) (className : Option String) :
    (session.follow events).track className =
      (session.track className).follow session.keepGoing (ownEvents className events) := by
  induction events generalizing session with
  | nil => rfl
  | cons event events ih =>
      have goodRest : ∀ record, .offered record ∈ events → record.WellFormed := fun record member =>
        good record (List.mem_cons_of_mem _ member)
      have next := apply_valid session valid event fun record same => good record (by simp [same])
      rw [follow]
      by_cases halted : session.isHalted event.className?
      · rw [if_pos halted, ih session valid goodRest]
        rw [is_halted_eq session valid] at halted
        by_cases own : event.className? = className
        · subst own
          simp [ownEvents, Track.follow, halted]
        · simp [ownEvents, own]
      · rw [if_neg halted, ih _ next goodRest, apply_keep_going, apply_track session valid]
        rw [is_halted_eq session valid] at halted
        by_cases own : event.className? = className
        · subst own
          simp [ownEvents, Track.follow, halted]
        · simp [ownEvents, own]

theorem follow_report (keepGoing : Bool) (events : List Event)
    (constructed : ∀ record, .offered record ∈ events → Constructed record) (className : Option String) :
    ((start keepGoing).follow events).report? className =
      (Track.initial.follow keepGoing (ownEvents className events)).report := by
  have tracked := follow_track (start keepGoing) (start_valid keepGoing) events
    (fun record member => constructed_well_formed record (constructed record member)) className
  exact congrArg Track.report tracked

def Track.Readable {ε α : Type} (keepGoing : Bool) (read : α → Except ε Reading) : Track → List α → Prop
  | _, [] => True
  | track, input :: inputs =>
      if track.halted then Readable keepGoing read track inputs
      else ∃ reading, read input = .ok reading ∧
        Readable keepGoing read (track.follow keepGoing (event? (read input)).toList) inputs

section Comparison

variable {ε α : Type} {className : α → Option String} {read : α → Except ε Reading}

theorem take_own_track (faithful : Faithful className read) (session : Session) (valid : session.Valid) (input : α)
    (reading : Reading) (readEq : read input = .ok reading) (running : ¬ session.isHalted (className input)) :
    (session.take reading).track (className input) =
      (session.track (className input)).follow session.keepGoing (event? (read input)).toList := by
  rw [is_halted_eq session valid] at running
  rw [take_track (ε := ε) session valid reading, ← readEq]
  cases brings : event? (read input) with
  | none => rfl
  | some event =>
      have own := (faithful_event className read faithful input event brings).1
      simp only [own, if_true, Option.toList_some, Track.follow, if_neg running]

theorem take_other_track (faithful : Faithful className read) (session : Session) (valid : session.Valid) (input : α)
    (reading : Reading) (readEq : read input = .ok reading) (name : Option String) (other : className input ≠ name) :
    (session.take reading).track name = session.track name := by
  rw [take_track (ε := ε) session valid reading, ← readEq]
  cases brings : event? (read input) with
  | none => rfl
  | some event =>
      have own := (faithful_event className read faithful input event brings).1
      simp only [own, if_neg other]

theorem compare_done_iff (faithful : Faithful className read) (inputs : List α) (session : Session)
    (valid : session.Valid) :
    (compare className read inputs session).1 = .ok () ↔
      ∀ name, (session.track name).Readable session.keepGoing read
        (inputs.filter fun input => className input = name) := by
  induction inputs generalizing session with
  | nil => simp [compare, Track.Readable]
  | cons input inputs ih =>
      rw [compare]
      by_cases halted : session.isHalted (className input)
      · rw [if_pos halted, ih session valid]
        rw [is_halted_eq session valid] at halted
        refine forall_congr' fun name => ?_
        by_cases own : className input = name
        · subst own
          simp [Track.Readable, halted]
        · simp [own]
      · rw [if_neg halted]
        have running := halted
        rw [is_halted_eq session valid] at running
        cases readEq : read input with
        | error error =>
            simp only [reduceCtorEq, false_iff, not_forall]
            refine ⟨className input, ?_⟩
            simp [Track.Readable, running, readEq]
        | ok reading =>
            have next := read_valid faithful session valid input reading halted readEq
            simp only [ih _ next, take_keep_going]
            refine forall_congr' fun name => ?_
            by_cases own : className input = name
            · subst own
              rw [take_own_track faithful session valid input reading readEq halted]
              simp [Track.Readable, running, readEq]
            · rw [take_other_track faithful session valid input reading readEq name own]
              simp [own]

theorem class_events_own (inputs : List α) (name : Option String) :
    ∀ event ∈ classEvents read inputs name, event.className? = name := by
  intro event member
  exact of_decide_eq_true (List.mem_filter.mp member).2

theorem class_events_of_own (faithful : Faithful className read) (inputs : List α) (name : Option String) :
    classEvents read inputs name =
      (inputs.filter fun input => className input = name).filterMap fun input => event? (read input) := by
  induction inputs with
  | nil => rfl
  | cons input inputs ih =>
      rw [class_events_cons, ih]
      cases brings : event? (read input) with
      | none => by_cases own : className input = name <;> simp [own, brings]
      | some event =>
          have same := (faithful_event className read faithful input event brings).1
          by_cases own : className input = name <;> simp [own, same, brings]

theorem compare_reordered (faithful : Faithful className read) (inputs others : List α)
    (same : ∀ name, inputs.filter (fun input => className input = name) =
      others.filter fun input => className input = name)
    (keepGoing : Bool) (last : Session) (done : compare className read inputs (start keepGoing) = (.ok (), last)) :
    ∃ final, compare className read others (start keepGoing) = (.ok (), final) ∧
      ∀ name, final.report? name = last.report? name := by
  have valid := start_valid keepGoing
  have readable := (compare_done_iff faithful inputs (start keepGoing) valid).mp (by rw [done])
  have othersDone : (compare className read others (start keepGoing)).1 = .ok () :=
    (compare_done_iff faithful others (start keepGoing) valid).mpr fun name => same name ▸ readable name
  refine ⟨(compare className read others (start keepGoing)).2, Prod.ext othersDone rfl, fun name => ?_⟩
  have before := (compare_from_start faithful inputs keepGoing last done).2 name
  have after := (compare_from_start faithful others keepGoing _ (Prod.ext othersDone rfl)).2 name
  rw [class_events_of_own faithful, same name, ← class_events_of_own faithful] at before
  exact congrArg Track.report (after.trans before.symm)

end Comparison

end Session

namespace Verification

def classOuter (versions classes : List String) : List (String × String) :=
  classes.eraseDups.flatMap fun className => (pairs versions classes).filter fun pair => pair.2 = className

theorem grouped_own (inputs : List (String × String)) (names : List String) (distinct : names.Nodup)
    (className : String) :
    (names.flatMap fun name => inputs.filter fun pair => pair.2 = name).filter (fun pair => pair.2 = className) =
      if className ∈ names then inputs.filter fun pair => pair.2 = className else [] := by
  induction names with
  | nil => rfl
  | cons name names ih =>
      obtain ⟨fresh, namesDistinct⟩ := List.nodup_cons.mp distinct
      rw [List.flatMap_cons, List.filter_append, ih namesDistinct, List.filter_filter]
      by_cases same : className = name
      · subst same
        simp [fresh]
      · have none : (inputs.filter fun pair => decide (pair.2 = className) && decide (pair.2 = name)) = [] := by
          rw [List.filter_eq_nil_iff]
          intro pair _ both
          simp only [Bool.and_eq_true, decide_eq_true_eq] at both
          exact same (both.1.symm.trans both.2)
        simp [none, same]

theorem class_outer_own (versions classes : List String) (name : Option String) :
    (pairs versions classes).filter (fun pair => some pair.2 = name) =
      (classOuter versions classes).filter fun pair => some pair.2 = name := by
  cases name with
  | none => simp
  | some className =>
      simp only [Option.some.injEq]
      rw [classOuter, grouped_own _ _ (erase_dups_nodup classes)]
      split
      · rfl
      · next unknown =>
          rw [List.filter_eq_nil_iff]
          intro pair member same
          have known := ((mem_pairs_iff versions classes pair.1 pair.2).mp member).2
          rw [of_decide_eq_true same] at known
          exact unknown (List.mem_eraseDups.mpr known)

theorem class_outer_of_distinct (versions classes : List String) (distinct : classes.Nodup) :
    classOuter versions classes =
      classes.flatMap fun className => versions.map fun version => (version, className) := by
  rw [classOuter, erase_dups_of_nodup classes distinct, List.flatMap_def, List.flatMap_def]
  congr 1
  apply List.map_congr_left
  intro className known
  exact pairs_of_class versions classes className (List.count_eq_one_of_mem distinct known)

theorem run_class_outer (verification : Verification) (now : String) (tree : FileTree) (report : Report)
    (reported : (verification.run now tree).1 = .ok report) :
    ∃ classes last, ((verification.prepare .plain).run ⟨tree, [], []⟩).1 = .ok (report.versions, classes) ∧
      verification.compared (verification.run now tree).2.tree (classOuter report.versions classes) =
        (.ok (), last) ∧
      ∀ className, last.report? className = report.classes.find? fun entry => entry.className = className := by
  obtain ⟨classes, last, prepared, done, same⟩ := run_compared verification now tree report reported
  obtain ⟨final, finished, reports⟩ := Session.compare_reordered (read_pair_faithful verification _) _ _
    (class_outer_own report.versions classes) verification.options.keepGoing last done
  refine ⟨classes, final, prepared, finished, fun className => ?_⟩
  rw [reports className, same]
  rfl

end Verification

open Session (start ownEvents)

theorem reports_of_own_events (keepGoing : Bool) (events others : List Session.Event) (className : Option String)
    (constructed : ∀ record, .offered record ∈ events ++ others → Constructed record)
    (same : ownEvents className events = ownEvents className others) :
    ((start keepGoing).follow events).report? className = ((start keepGoing).follow others).report? className := by
  rw [Session.follow_report keepGoing events fun record member => constructed record (List.mem_append_left _ member),
    Session.follow_report keepGoing others fun record member => constructed record (List.mem_append_right _ member),
    same]

-- The events of the other classes may be others, more or fewer; only the class's own ones count.
theorem class_reports_isolated :
    (∀ (keepGoing : Bool) (events others : List Session.Event) (className : Option String),
      (∀ record, .offered record ∈ events ++ others → Constructed record) →
      ownEvents className events = ownEvents className others →
        ((start keepGoing).follow events).report? className =
          ((start keepGoing).follow others).report? className) ∧
    (∀ (keepGoing : Bool) (events : List Session.Event) (className : Option String),
      (∀ record, .offered record ∈ events → Constructed record) →
        ((start keepGoing).follow events).report? className =
          ((start keepGoing).follow (ownEvents className events)).report? className) ∧
    (∀ (keepGoing : Bool) (before after : List Session.Event) (event : Session.Event) (className : Option String),
      (∀ record, .offered record ∈ before ++ event :: after → Constructed record) →
      event.className? ≠ className →
        ((start keepGoing).follow (before ++ event :: after)).report? className =
          ((start keepGoing).follow (before ++ after)).report? className) ∧
    (∀ (verification : Verification) (now : String) (tree : FileTree) (report : Report),
      (verification.run now tree).1 = .ok report →
        ∃ classes last, ((verification.prepare .plain).run ⟨tree, [], []⟩).1 = .ok (report.versions, classes) ∧
          verification.compared (verification.run now tree).2.tree
            (Verification.classOuter report.versions classes) = (.ok (), last) ∧
          ∀ className, last.report? className = report.classes.find? fun entry => entry.className = className) ∧
    ∀ versions classes : List String, classes.Nodup →
      Verification.classOuter versions classes =
        classes.flatMap fun className => versions.map fun version => (version, className) := by
  refine ⟨reports_of_own_events, ?_, ?_, Verification.run_class_outer, Verification.class_outer_of_distinct⟩
  · intro keepGoing events className constructed
    apply reports_of_own_events keepGoing events _ className
    · intro record member
      rcases List.mem_append.mp member with given | own
      · exact constructed record given
      · exact constructed record (List.mem_filter.mp own).1
    · rw [ownEvents, ownEvents, List.filter_filter]
      simp only [Bool.and_self]
  · intro keepGoing before after event className constructed foreign
    apply reports_of_own_events keepGoing _ _ className
    · intro record member
      apply constructed record
      rcases List.mem_append.mp member with all | fewer
      · exact all
      · exact (List.sublist_cons_self event after).append_left before |>.subset fewer
    · simp [ownEvents, foreign]

def takingTurns : List Session.Event :=
  [.offered (.ofMethods "1" (some "A") [("m()", ["X"])]), .failed (some "B") ⟨"1", some "B", "m()"⟩,
    .offered (.ofMethods "2" (some "A") [("m()", ["Y"])]), .offered (.ofMethods "2" (some "B") [("m()", [])]),
    .offered (.ofMethods "3" (some "A") [("m()", ["X"])])]

def oneAfterTheOther : List Session.Event :=
  [.failed (some "B") ⟨"1", some "B", "m()"⟩, .offered (.ofMethods "2" (some "B") [("m()", [])]),
    .offered (.ofMethods "1" (some "A") [("m()", ["X"])]), .offered (.ofMethods "2" (some "A") [("m()", ["Y"])]),
    .offered (.ofMethods "3" (some "A") [("m()", ["X"])])]

theorem class_reports_isolated_taking_turns :
    (∀ record, .offered record ∈ takingTurns ++ oneAfterTheOther → Constructed record) ∧
    ((start false).follow takingTurns).report? (some "A") =
      ((start false).follow oneAfterTheOther).report? (some "A") ∧
    ((start false).follow takingTurns).report? (some "A") =
      ((start false).follow (ownEvents (some "A") takingTurns)).report? (some "A") ∧
    ((start false).follow takingTurns).report? (some "A") =
      ((start false).follow (takingTurns.take 1 ++ takingTurns.drop 2)).report? (some "A") ∧
    (((start false).follow takingTurns).report? (some "A")).map (fun entry => (entry.versions, entry.halted)) =
      some (["1"], true) ∧
    (∃ report classes last, ((returningVerification.keeping true).run "noon" unevenTree).1 = .ok report ∧
      outline report = [(["1", "5"], ["4"], ["3"], false)] ∧
      (returningVerification.keeping true).compared
        ((returningVerification.keeping true).run "noon" unevenTree).2.tree
          (Verification.classOuter report.versions classes) = (.ok (), last) ∧
      last.report? (some "A") = report.classes.find? fun entry => entry.className = some "A") ∧
    Verification.classOuter ["1", "2"] ["A", "B"] = [("1", "A"), ("2", "A"), ("1", "B"), ("2", "B")] := by
  have constructed : ∀ record, .offered record ∈ takingTurns ++ oneAfterTheOther → Constructed record := by
    intro record member
    simp only [takingTurns, oneAfterTheOther, List.cons_append, List.nil_append, List.mem_cons, List.not_mem_nil,
      or_false, reduceCtorEq, false_or, Session.Event.offered.injEq] at member
    rcases member with rfl | rfl | rfl | rfl | rfl | rfl | rfl | rfl <;> exact .given _ _ _
  have turns : ∀ record, .offered record ∈ takingTurns → Constructed record := fun record member =>
    constructed record (List.mem_append_left _ member)
  obtain ⟨report, ran, outlined⟩ := outlined_report _ _ uneven_outline
  obtain ⟨interleaved, alone, foreign, classOuter, plain⟩ := class_reports_isolated
  obtain ⟨classes, last, _, done, same⟩ := classOuter _ "noon" unevenTree report ran
  exact ⟨constructed, interleaved false takingTurns oneAfterTheOther (some "A") constructed rfl,
    alone false takingTurns (some "A") turns,
    foreign false (takingTurns.take 1) (takingTurns.drop 2) (.failed (some "B") ⟨"1", some "B", "m()"⟩) (some "A")
      turns (by decide), by decide,
    ⟨report, classes, last, ran, outlined, done, same (some "A")⟩, plain ["1", "2"] ["A", "B"] (by decide)⟩

end BytecodeParity
