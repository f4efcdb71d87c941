import BytecodeParity.Proofs.ClassIsolation
import BytecodeParity.Proofs.ClassLedger

/-!
Halting cuts a comparison short and changes nothing else. Where a run that keeps going gives a
report, the same run that halts gives one too, and it reports of every class what was entered before
its first divergence and this divergence.
-/

set_option autoImplicit false

namespace BytecodeParity

open ClassRecord

namespace ClassReport

structure Truncates (entries : List ReportEntry) (whole part : ClassReport) : Prop where
  sameClass : part.className = whole.className
  wholeVersions : whole.versions = entries.filterMap ReportEntry.agreed?
  wholeDivergences : whole.divergences = entries.filterMap ReportEntry.divergence?
  wholeFailures : whole.buildFailures = entries.filterMap ReportEntry.failure?
  versions : part.versions = (entries.takeWhile fun entry => !entry.diverges).filterMap ReportEntry.agreed?
  divergences : part.divergences = whole.divergences.take 1
  buildFailures : part.buildFailures = (entries.takeWhile fun entry => !entry.diverges).filterMap ReportEntry.failure?
  halted : part.halted = !whole.divergences.isEmpty

theorem truncates_versions {entries : List ReportEntry} {whole part : ClassReport}
    (truncates : Truncates entries whole part) : part.versions <+: whole.versions := by
  rw [truncates.versions, truncates.wholeVersions]
  exact (List.takeWhile_prefix _).filterMap _

theorem truncates_failures {entries : List ReportEntry} {whole part : ClassReport}
    (truncates : Truncates entries whole part) : part.buildFailures <+: whole.buildFailures := by
  rw [truncates.buildFailures, truncates.wholeFailures]
  exact (List.takeWhile_prefix _).filterMap _

theorem forall₂_of_names {relation : ClassReport → ClassReport → Prop} (wholes parts : List ClassReport)
    (names : wholes.map (·.className) = parts.map (·.className))
    (related : ∀ whole ∈ wholes, ∀ part ∈ parts, whole.className = part.className → relation whole part) :
    List.Forall₂ relation wholes parts := by
  induction wholes generalizing parts with
  | nil =>
      cases parts with
      | nil => exact .nil
      | cons part parts => cases names
  | cons whole wholes ih =>
      cases parts with
      | nil => cases names
      | cons part parts =>
          obtain ⟨first, rest⟩ := List.cons.inj names
          refine .cons (related whole List.mem_cons_self part List.mem_cons_self first) (ih parts rest ?_)
          intro laterWhole memberWhole laterPart memberPart
          exact related laterWhole (List.mem_cons_of_mem _ memberWhole) laterPart (List.mem_cons_of_mem _ memberPart)

end ClassReport

namespace Session

namespace Track

theorem follow_running (track : Track) (events : List Event) (running : track.halted = false) :
    (track.follow true events).halted = false := by
  induction events generalizing track with
  | nil => exact running
  | cons event events ih =>
      rw [follow, if_neg (by simp [running])]
      exact ih _ (apply_running track event running)

theorem readable_all {ε α : Type} (read : α → Except ε Reading) (track : Track) (inputs : List α)
    (running : track.halted = false) (readable : track.Readable true read inputs) :
    ∀ input ∈ inputs, ∃ reading, read input = .ok reading := by
  induction inputs generalizing track with
  | nil => simp
  | cons input inputs ih =>
      rw [Readable, if_neg (by simp [running])] at readable
      obtain ⟨reading, readEq, rest⟩ := readable
      intro other member
      rcases List.mem_cons.mp member with rfl | later
      · exact ⟨reading, readEq⟩
      · exact ih _ (follow_running track _ running) rest other later

theorem follow_truncated (className : Option String) (events : List Event)
    (own : ∀ event ∈ events, event.className? = className) (whole part : ClassReport)
    (kept : (initial.follow true events).report = some whole)
    (cut : (initial.follow false events).report = some part) :
    ClassReport.Truncates (ledger [] events) whole part := by
  have wholeEntered := follow_report_eq true className events own whole kept
  have partEntered := follow_report_eq false className events own part cut
  rw [ReportEntry.reached_all] at wholeEntered
  have wholeLists : whole.Lists (ledger [] events) := wholeEntered ▸ ClassReport.enter_all_lists true className _
  have partLists : part.Lists (ReportEntry.reached false (ledger [] events)) :=
    partEntered ▸ ClassReport.enter_all_lists false className _
  refine { sameClass := ?_, wholeVersions := wholeLists.versions, wholeDivergences := wholeLists.divergences,
           wholeFailures := wholeLists.buildFailures, versions := ?_, divergences := ?_, buildFailures := ?_,
           halted := ?_ }
  · rw [wholeEntered, partEntered, ClassReport.enter_all_class, ClassReport.enter_all_class]
  · rw [partLists.versions, ReportEntry.reached_agreed]
  · rw [partLists.divergences, wholeLists.divergences, ReportEntry.reached_divergences]
  · rw [partLists.buildFailures, ReportEntry.reached_failures]
  · rw [partEntered, ClassReport.enter_all_halted, wholeLists.divergences, ← ReportEntry.reached_diverges]
    cases (ReportEntry.reached false (ledger [] events)).any ReportEntry.diverges <;> rfl

end Track

def enroll (names : List (Option String)) (name : Option String) : List (Option String) :=
  if name ∈ names then names else names ++ [name]

theorem apply_names (session : Session) (valid : session.Valid) (event : Event) :
    (session.apply event).classes.map (·.className) =
      enroll (session.classes.map (·.className)) event.className? := by
  cases event with
  | offered record =>
      rw [apply, offer_classes session valid]
      exact update_report_names _ _ _ (ClassReport.offered_class _ _ _)
  | failed className missing => exact update_report_names className (ClassReport.failed missing) _ fun _ => rfl

section Comparison

variable {ε α : Type} {className : α → Option String} {read : α → Except ε Reading}

def announced (read : α → Except ε Reading) (inputs : List α) : List (Option String) :=
  inputs.filterMap fun input => (event? (read input)).map Event.className?

theorem announced_cons (input : α) (inputs : List α) :
    announced read (input :: inputs) =
      ((event? (read input)).map Event.className?).toList ++ announced read inputs := by
  cases brings : event? (read input) <;> simp [announced, brings]

theorem compare_names (faithful : Faithful className read) (inputs : List α) (session last : Session)
    (valid : session.Valid) (done : compare className read inputs session = (.ok (), last)) :
    last.classes.map (·.className) =
      (announced read inputs).foldl enroll (session.classes.map (·.className)) := by
  induction inputs generalizing session with
  | nil =>
      rw [compare] at done
      cases done
      rfl
  | cons input inputs ih =>
      rw [announced_cons, List.foldl_append]
      rcases compare_cons_done done with ⟨halted, done⟩ | ⟨running, reading, readEq, done⟩
      · rw [ih session valid done]
        cases brings : event? (read input) with
        | none => rfl
        | some event =>
            obtain ⟨report, member, held⟩ := List.any_eq_true.mp halted
            simp only [Bool.and_eq_true, decide_eq_true_eq] at held
            have named := (faithful_event className read faithful input event brings).1
            have known : event.className? ∈ session.classes.map (·.className) :=
              named ▸ held.1 ▸ List.mem_map_of_mem member
            have enrolled : enroll (session.classes.map (·.className)) event.className? =
                session.classes.map (·.className) := if_pos known
            rw [Option.map_some, Option.toList_some, List.foldl_cons, enrolled, List.foldl_nil]
      · have next := read_valid faithful session valid input reading running readEq
        rw [readEq, ih (session.take reading) next done]
        cases reading with
        | absent version absentClass => rfl
        | built scope build =>
            rw [take_built, apply_names _ (note_valid session valid _)]
            rfl

theorem compare_all_read (inputs : List α) (session : Session)
    (readable : ∀ input ∈ inputs, ∃ reading, read input = .ok reading) :
    (compare className read inputs session).1 = .ok () := by
  cases compared : (compare className read inputs session).1 with
  | ok done => rfl
  | error error =>
      obtain ⟨input, member, failed⟩ := compare_error inputs session error compared
      obtain ⟨reading, readEq⟩ := readable input member
      rw [readEq] at failed
      cases failed

theorem compare_reads_all (faithful : Faithful className read) (inputs : List α) (full : Session)
    (done : compare className read inputs (start true) = (.ok (), full)) :
    ∀ input ∈ inputs, ∃ reading, read input = .ok reading := by
  intro input member
  have ownReadable := (compare_done_iff faithful inputs (start true) (start_valid true)).mp (by rw [done])
    (className input)
  exact Track.readable_all read _ _ rfl ownReadable input (by simp [member])

theorem compare_truncated (faithful : Faithful className read) (inputs : List α) (full : Session)
    (done : compare className read inputs (start true) = (.ok (), full)) :
    ∃ cut, compare className read inputs (start false) = (.ok (), cut) ∧
      cut.classes.all ClassReport.isConsistent = full.classes.all ClassReport.isConsistent ∧
      List.Forall₂ (fun whole part =>
        ClassReport.Truncates (ledger [] (classEvents read inputs whole.className)) whole part)
        full.classes cut.classes := by
  have cutDone : compare className read inputs (start false) =
      (.ok (), (compare className read inputs (start false)).2) :=
    Prod.ext (compare_all_read inputs (start false) (compare_reads_all faithful inputs full done)) rfl
  generalize (compare className read inputs (start false)).2 = cut at cutDone
  obtain ⟨fullValid, fullTrack⟩ := compare_from_start faithful inputs true full done
  obtain ⟨cutValid, cutTrack⟩ := compare_from_start faithful inputs false cut cutDone
  refine ⟨cut, cutDone, ?_, ?_⟩
  · rw [Bool.eq_iff_iff, compare_consistent_iff faithful inputs false cut cutDone,
      compare_consistent_iff faithful inputs true full done]
  · apply ClassReport.forall₂_of_names
    · rw [compare_names faithful inputs (start true) full (start_valid true) done,
        compare_names faithful inputs (start false) cut (start_valid false) cutDone]
      rfl
    · intro whole memberWhole part memberPart same
      have kept := congrArg Track.report (fullTrack whole.className)
      have halted := congrArg Track.report (cutTrack whole.className)
      refine Track.follow_truncated whole.className _ (class_events_own inputs _) whole part ?_ ?_
      · exact kept.symm.trans (report_of_mem full fullValid whole memberWhole)
      · exact halted.symm.trans (same ▸ report_of_mem cut cutValid part memberPart)

end Comparison

end Session

namespace Verification

def classLedger (verification : Verification) (tree : FileTree) (versions classes : List String)
    (className : Option String) : List ReportEntry :=
  Session.ledger [] (Session.classEvents (verification.readPair tree) (pairs versions classes) className)

theorem run_truncated (verification : Verification) (now : String) (tree : FileTree) (kept : Report)
    (reported : ((verification.keeping true).run now tree).1 = .ok kept) :
    ∃ classes cut, ((verification.prepare .plain).run ⟨tree, [], []⟩).1 = .ok (kept.versions, classes) ∧
      ((verification.keeping false).run now tree).1 = .ok cut ∧ cut.success = kept.success ∧
      List.Forall₂ (fun whole part => ClassReport.Truncates (verification.classLedger
        ((verification.keeping true).run now tree).2.tree kept.versions classes whole.className) whole part)
        kept.classes cut.classes := by
  obtain ⟨versions, classes, reached, full, prepared, done, rfl⟩ := (run_ok_iff _ _ _ _).mp reported
  rw [run_tree (verification.keeping true) now tree reached _ prepared]
  obtain ⟨part, partDone, verdict, truncates⟩ :=
    Session.compare_truncated (read_pair_faithful verification reached.tree) (pairs versions classes) full done
  rw [prepare_keeping] at prepared
  refine ⟨classes, ⟨now, .perClass, versions, part.classes⟩, by rw [prepared], ?_, verdict, truncates⟩
  refine (run_ok_iff _ _ _ _).mpr ⟨versions, classes, reached, part, ?_, partDone, rfl⟩
  rw [prepare_keeping, prepared]

end Verification

namespace SingleRun

theorem run_truncated (namespacePrefix : String) (inputs : List SingleInput) (now : String) (tree : FileTree)
    (kept : Report) (reported : (run namespacePrefix true inputs now tree).1 = .ok kept) :
    ∃ cut, (run namespacePrefix false inputs now tree).1 = .ok cut ∧ cut.success = kept.success ∧
      List.Forall₂ (fun whole part => ClassReport.Truncates
        (Session.ledger [] (Session.classEvents (readInput namespacePrefix tree) inputs whole.className)) whole part)
        kept.classes cut.classes := by
  obtain ⟨given, full, done, rfl⟩ := (run_ok_iff _ _ _ _ _ _).mp reported
  obtain ⟨part, partDone, verdict, truncates⟩ :=
    Session.compare_truncated (read_input_faithful namespacePrefix tree) inputs full done
  exact ⟨_, (run_ok_iff _ _ _ _ _ _).mpr ⟨given, part, partDone, rfl⟩, verdict, truncates⟩

end SingleRun

-- The classes stand in the same order in both reports. What the report of the halting run lists of a
-- class was entered before the first divergence, and so it is the beginning of what the other one lists.
theorem halting_truncates :
    (∀ (verification : Verification) (now : String) (tree : FileTree) (kept : Report),
      ((verification.keeping true).run now tree).1 = .ok kept →
        ∃ classes cut, ((verification.prepare .plain).run ⟨tree, [], []⟩).1 = .ok (kept.versions, classes) ∧
          ((verification.keeping false).run now tree).1 = .ok cut ∧ cut.success = kept.success ∧
          List.Forall₂ (fun whole part =>
            ClassReport.Truncates (verification.classLedger ((verification.keeping true).run now tree).2.tree
                kept.versions classes whole.className) whole part ∧
              part.versions <+: whole.versions ∧ part.buildFailures <+: whole.buildFailures)
            kept.classes cut.classes) ∧
    ∀ (namespacePrefix : String) (inputs : List SingleInput) (now : String) (tree : FileTree) (kept : Report),
      (SingleRun.run namespacePrefix true inputs now tree).1 = .ok kept →
        ∃ cut, (SingleRun.run namespacePrefix false inputs now tree).1 = .ok cut ∧ cut.success = kept.success ∧
          List.Forall₂ (fun whole part =>
            ClassReport.Truncates
                (Session.ledger [] (Session.classEvents (SingleRun.readInput namespacePrefix tree) inputs
                  whole.className)) whole part ∧
              part.versions <+: whole.versions ∧ part.buildFailures <+: whole.buildFailures)
            kept.classes cut.classes := by
  constructor
  · intro verification now tree kept reported
    obtain ⟨classes, cut, prepared, ran, verdict, truncates⟩ :=
      Verification.run_truncated verification now tree kept reported
    refine ⟨classes, cut, prepared, ran, verdict, truncates.imp fun whole part truncated => ?_⟩
    exact ⟨truncated, ClassReport.truncates_versions truncated, ClassReport.truncates_failures truncated⟩
  · intro namespacePrefix inputs now tree kept reported
    obtain ⟨cut, ran, verdict, truncates⟩ := SingleRun.run_truncated namespacePrefix inputs now tree kept reported
    refine ⟨cut, ran, verdict, truncates.imp fun whole part truncated => ?_⟩
    exact ⟨truncated, ClassReport.truncates_versions truncated, ClassReport.truncates_failures truncated⟩

set_option maxRecDepth 10000 in
theorem uneven_outline_halting :
    ((returningVerification.keeping false).run "noon" unevenTree).1.toOption.map outline =
      some [(["1"], ["4"], ["3"], true)] := by decide +kernel

def unchangedInputs : List SingleInput :=
  [⟨"1", "/r/1/bytecode_1_A.txt"⟩, ⟨"4", "/r/4/bytecode_4_A.txt"⟩]

set_option maxRecDepth 10000 in
theorem unchanged_outline :
    (SingleRun.run "n/" true unchangedInputs "noon" unevenTree).1.toOption.map outline =
      some [(["1", "4"], [], [], false)] := by decide +kernel

theorem halting_truncates_uneven :
    (∃ kept cut, ((returningVerification.keeping true).run "noon" unevenTree).1 = .ok kept ∧
      outline kept = [(["1", "5"], ["4"], ["3"], false)] ∧
      ((returningVerification.keeping false).run "noon" unevenTree).1 = .ok cut ∧
      outline cut = [(["1"], ["4"], ["3"], true)] ∧ cut.success = kept.success ∧
      List.Forall₂ (fun whole part => part.divergences = whole.divergences.take 1 ∧
        part.versions <+: whole.versions ∧ part.buildFailures <+: whole.buildFailures) kept.classes cut.classes) ∧
    ∃ kept cut, (SingleRun.run "n/" true unchangedInputs "noon" unevenTree).1 = .ok kept ∧
      outline kept = [(["1", "4"], [], [], false)] ∧
      (SingleRun.run "n/" false unchangedInputs "noon" unevenTree).1 = .ok cut ∧ cut.success = kept.success := by
  obtain ⟨kept, ran, outlined⟩ := outlined_report _ _ uneven_outline
  obtain ⟨halting, halted, outlinedHalting⟩ := outlined_report _ _ uneven_outline_halting
  obtain ⟨single, ranSingle, outlinedSingle⟩ := outlined_report _ _ unchanged_outline
  obtain ⟨classes, cut, _, ranCut, verdict, truncates⟩ :=
    halting_truncates.1 returningVerification "noon" unevenTree kept ran
  obtain ⟨cutSingle, ranCutSingle, verdictSingle, _⟩ :=
    halting_truncates.2 "n/" unchangedInputs "noon" unevenTree single ranSingle
  rw [halted] at ranCut
  cases ranCut
  refine ⟨⟨kept, halting, ran, outlined, halted, outlinedHalting, verdict, ?_⟩,
    single, cutSingle, ranSingle, outlinedSingle, ranCutSingle, verdictSingle⟩
  exact truncates.imp fun whole part truncated => ⟨truncated.1.divergences, truncated.2⟩

end BytecodeParity
