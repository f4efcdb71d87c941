import BytecodeParity.Proofs.Attribution
import BytecodeParity.Proofs.KeepGoingReport

set_option autoImplicit false

namespace BytecodeParity

open ClassRecord

theorem Baselines.judge_error_iff (previous : Option ClassRecord) (record : ClassRecord) (divergence : Divergence) :
    judge previous record = .error divergence ↔ ∃ baseline attribution, previous = some baseline ∧
      locateDivergence baseline record = some attribution ∧ divergence = .between baseline record attribution := by
  cases previous with
  | none => simp [judge]
  | some baseline => cases located : locateDivergence baseline record <;> simp [judge, located, eq_comm]

theorem ClassReport.offered_divergences (keepGoing : Bool) (earlier : List ClassRecord) (record : ClassRecord)
    (report : ClassReport) (divergence : Divergence)
    (listed : divergence ∈ (report.offered keepGoing earlier record).divergences) :
    divergence ∈ report.divergences ∨ ∃ produced, Baselines.judge earlier.getLast? record = .error produced ∧
      divergence = produced.withHistory (earlier ++ [record]) := by
  cases judged : Baselines.judge earlier.getLast? record with
  | ok accepted =>
      simp only [offered, judged] at listed
      exact .inl listed
  | error produced =>
      simp only [offered, judged, List.mem_append, List.mem_singleton] at listed
      exact listed.imp_right fun last => ⟨produced, rfl, last⟩

namespace Session

def Lists (session : Session) (name : Option String) (divergence : Divergence) : Prop :=
  ∃ report ∈ session.classes, report.className = name ∧ divergence ∈ report.divergences

structure Refuses (session : Session) (record : ClassRecord) (produced divergence : Divergence) : Prop where
  answered : (session.baselines.accumulate record).1 = .error produced
  shown : divergence = produced.withHistory (session.history record.className ++ [record])

theorem refused_between (session : Session) (valid : session.Valid) (record : ClassRecord) (produced : Divergence)
    (answered : (session.baselines.accumulate record).1 = .error produced) :
    ∃ earlier baseline attribution, session.baselines.find? record.className = some baseline ∧
      session.history record.className = earlier ++ [baseline] ∧ baseline.WellFormed ∧
      locateDivergence baseline record = some attribution ∧ produced = .between baseline record attribution := by
  obtain ⟨baseline, attribution, since, located, between⟩ := (Baselines.judge_error_iff _ _ _).mp answered
  have last := since
  rw [valid.baseline] at last
  obtain ⟨earlier, history⟩ := List.getLast?_eq_some_iff.mp last
  have good := (valid.sound record.className).wellFormed baseline (List.mem_of_getLast? last)
  exact ⟨earlier, baseline, attribution, since, history, good, located, between⟩

theorem mem_update_report (target : Option String) (change : ClassReport → ClassReport) (classes : List ClassReport)
    (report : ClassReport) (member : report ∈ updateReport target change classes) :
    report ∈ classes ∨ ∃ prior, (prior ∈ classes ∨ prior = .empty target) ∧ prior.className = target ∧
      report = change prior := by
  induction classes with
  | nil => exact .inr ⟨.empty target, .inr rfl, rfl, List.mem_singleton.mp member⟩
  | cons first rest ih =>
      rw [updateReport] at member
      split at member
      · next own =>
          rcases List.mem_cons.mp member with changed | later
          · exact .inr ⟨first, .inl List.mem_cons_self, own, changed⟩
          · exact .inl (List.mem_cons_of_mem first later)
      · rcases List.mem_cons.mp member with rfl | later
        · exact .inl List.mem_cons_self
        · rcases ih later with kept | ⟨prior, known, own, changed⟩
          · exact .inl (List.mem_cons_of_mem first kept)
          · exact .inr ⟨prior, known.imp_left (List.mem_cons_of_mem first), own, changed⟩

theorem apply_lists (session : Session) (valid : session.Valid) (event : Event) (name : Option String)
    (divergence : Divergence) (listed : (session.apply event).Lists name divergence) :
    session.Lists name divergence ∨ ∃ record produced, event = .offered record ∧ record.className = name ∧
      session.Refuses record produced divergence := by
  obtain ⟨report, member, named, entered⟩ := listed
  -- A report that was opened for the event lists nothing.
  have before : ∀ prior : ClassReport, (prior ∈ session.classes ∨ prior = .empty event.className?) →
      prior.className = name → divergence ∈ prior.divergences → session.Lists name divergence := by
    rintro prior (known | rfl) same old
    · exact ⟨prior, known, same, old⟩
    · cases old
  cases event with
  | failed className missing =>
      rcases mem_update_report _ _ _ _ member with kept | ⟨prior, known, _, rfl⟩
      · exact .inl ⟨report, kept, named, entered⟩
      · exact .inl (before prior known named entered)
  | offered record =>
      rw [apply, offer_classes session valid] at member
      rcases mem_update_report _ _ _ _ member with kept | ⟨prior, known, own, rfl⟩
      · exact .inl ⟨report, kept, named, entered⟩
      · rw [ClassReport.offered_class] at named
        rcases ClassReport.offered_divergences _ _ _ prior divergence entered with old | ⟨produced, judged, shown⟩
        · exact .inl (before prior known named old)
        · refine .inr ⟨record, produced, rfl, own.symm.trans named, ?_, shown⟩
          rw [Baselines.accumulate, valid.baseline, judged]

section Comparison

variable {ε α : Type} {className : α → Option String} {read : α → Except ε Reading}

theorem take_lists (session : Session) (valid : session.Valid) (reading : Reading) (name : Option String)
    (divergence : Divergence) (listed : (session.take reading).Lists name divergence) :
    session.Lists name divergence ∨ ∃ record produced, builtRecord? (ε := ε) (.ok reading) = some record ∧
      record.className = name ∧ session.Refuses record produced divergence := by
  cases reading with
  | absent version absentClass => exact .inl listed
  | built scope build =>
      rw [take_built] at listed
      rcases apply_lists _ (note_valid session valid _) _ name divergence listed with
        old | ⟨record, produced, brings, own, refuses⟩
      · exact .inl old
      · refine .inr ⟨record, produced, ?_, own, refuses.answered, refuses.shown⟩
        exact (built_record_iff _ record).mpr (congrArg some brings)

structure Enters (className : α → Option String) (read : α → Except ε Reading) (session : Session) (before : List α)
    (input : α) (reached : Session) (record : ClassRecord) (produced divergence : Divergence) : Prop where
  came : compare className read before session = (.ok (), reached)
  running : reached.isHalted (className input) = false
  built : builtRecord? (read input) = some record
  refuses : reached.Refuses record produced divergence

theorem compare_lists (faithful : Faithful className read) (inputs : List α) (session last : Session)
    (valid : session.Valid) (done : compare className read inputs session = (.ok (), last)) (name : Option String)
    (divergence : Divergence) (listed : last.Lists name divergence) :
    session.Lists name divergence ∨ ∃ before input after reached record produced,
      inputs = before ++ input :: after ∧ record.className = name ∧
        Enters className read session before input reached record produced divergence := by
  induction inputs generalizing session with
  | nil =>
      rw [compare] at done
      cases done
      exact .inl listed
  | cons first inputs ih =>
      rcases compare_cons_done done with ⟨halted, done⟩ | ⟨running, reading, readEq, done⟩
      · -- An input that is passed over only lengthens the way to the one that the divergence was entered at.
        rcases ih session valid done with old | ⟨before, input, after, reached, record, produced, rfl, own, enters⟩
        · exact .inl old
        · refine .inr ⟨first :: before, input, after, reached, record, produced, rfl, own, ?_⟩
          exact { enters with came := by rw [compare, if_pos halted, enters.came] }
      · have next := read_valid faithful session valid first reading running readEq
        rcases ih _ next done with taken | ⟨before, input, after, reached, record, produced, rfl, own, enters⟩
        · rcases take_lists (ε := ε) session valid reading name divergence taken with
            old | ⟨record, produced, built, own, refuses⟩
          · exact .inl old
          · refine .inr ⟨[], first, inputs, session, record, produced, rfl, own, ?_⟩
            exact ⟨rfl, by simpa using running, by rw [readEq, built], refuses⟩
        · refine .inr ⟨first :: before, input, after, reached, record, produced, rfl, own, ?_⟩
          exact { enters with came := by rw [compare, if_neg running, readEq]; exact enters.came }

end Comparison

end Session

structure Finding (α : Type) where
  before : List α
  input : α
  after : List α
  session : Session
  earlier : List ClassRecord
  baseline : ClassRecord
  record : ClassRecord
  produced : Divergence

namespace Finding

variable {ε α : Type}

-- The comparison came to the input in this session, whose baselines answered the record of the input with
-- a divergence.
structure OccursIn (finding : Finding α) (className : α → Option String) (read : α → Except ε Reading)
    (keepGoing : Bool) (inputs : List α) (name : Option String) : Prop where
  place : inputs = finding.before ++ finding.input :: finding.after
  came : Session.compare className read finding.before (.start keepGoing) = (.ok (), finding.session)
  own : className finding.input = name
  running : finding.session.isHalted name = false
  built : Session.builtRecord? (read finding.input) = some finding.record
  ofClass : finding.record.className = name
  answered : (finding.session.baselines.accumulate finding.record).1 = .error finding.produced
  since : finding.session.baselines.find? name = some finding.baseline
  seen : finding.session.history name = finding.earlier ++ [finding.baseline]
  builtBefore : ((finding.before.filter fun input => className input = name).filterMap
    fun input => Session.builtRecord? (read input)) = finding.earlier ++ [finding.baseline]

structure IsShown (finding : Finding α) (divergence : Divergence) : Prop where
  className : divergence.className = finding.record.className
  since : divergence.baselineVersion = finding.baseline.version
  found : divergence.version = finding.record.version
  attribution : divergence.attribution = finding.produced.attribution
  unnamed : divergence.attribution = .unknown → divergence.snapshots = []
  history : ∀ method, divergence.attribution = .known method →
    divergence.snapshots = (finding.earlier ++ [finding.baseline, finding.record]).map fun record =>
      ⟨record.version, record.implementation? method⟩
  ending : ∀ method, divergence.attribution = .known method →
    finding.produced.snapshots <:+ divergence.snapshots ∧
      finding.produced.snapshots = [⟨divergence.baselineVersion, finding.baseline.implementation? method⟩,
        ⟨divergence.version, finding.record.implementation? method⟩]
  declared : ∀ method, divergence.attribution = .known method →
    ∃ snapshot ∈ finding.produced.snapshots, snapshot.implementation ≠ none

theorem shown_between (finding : Finding α) (goodBaseline : finding.baseline.WellFormed)
    (goodRecord : finding.record.WellFormed) (attribution : Attribution)
    (located : locateDivergence finding.baseline finding.record = some attribution)
    (judged : finding.produced = .between finding.baseline finding.record attribution) :
    finding.IsShown (finding.produced.withHistory (finding.earlier ++ [finding.baseline] ++ [finding.record])) := by
  obtain ⟨before, input, after, session, earlier, baseline, record, produced⟩ := finding
  obtain rfl : produced = .between baseline record attribution := judged
  cases attribution with
  | unknown =>
      exact { className := rfl, since := rfl, found := rfl, attribution := rfl, unnamed := fun _ => rfl,
              history := nofun, ending := nofun, declared := nofun }
  | known blamed =>
      have whole : earlier ++ [baseline] ++ [record] = earlier ++ [baseline, record] := List.append_assoc _ _ _
      refine { className := rfl, since := rfl, found := rfl, attribution := rfl, unnamed := nofun, history := ?_,
               ending := ?_, declared := ?_ }
      · rintro method ⟨⟩
        exact congrArg (List.map (Snapshot.ofRecord blamed)) whole
      · rintro method ⟨⟩
        refine ⟨⟨earlier.map (Snapshot.ofRecord blamed), ?_⟩, rfl⟩
        exact List.map_append.symm.trans (congrArg (List.map (Snapshot.ofRecord blamed)) whole.symm)
      · rintro method ⟨⟩
        rcases blamed_declared goodBaseline goodRecord blamed located with was | is
        · exact ⟨.ofRecord blamed baseline, List.mem_cons_self, Option.isSome_iff_ne_none.mp was⟩
        · exact ⟨.ofRecord blamed record, List.mem_cons_of_mem _ List.mem_cons_self, Option.isSome_iff_ne_none.mp is⟩

variable {className : α → Option String} {read : α → Except ε Reading}

theorem of_compared (faithful : Session.Faithful className read) (inputs : List α) (keepGoing : Bool) (last : Session)
    (done : Session.compare className read inputs (.start keepGoing) = (.ok (), last)) (entry : ClassReport)
    (member : entry ∈ last.classes) (divergence : Divergence) (listed : divergence ∈ entry.divergences) :
    ∃ finding : Finding α, finding.OccursIn className read keepGoing inputs entry.className ∧
      finding.IsShown divergence := by
  rcases Session.compare_lists faithful inputs (.start keepGoing) last (Session.start_valid keepGoing) done
      entry.className divergence ⟨entry, member, rfl, listed⟩ with
    ⟨_, nowhere, _⟩ | ⟨before, input, after, reached, record, produced, place, ofClass, enters⟩
  · cases nowhere
  obtain ⟨valid, -⟩ := Session.compare_from_start faithful before keepGoing reached enters.came
  obtain ⟨same, constructed⟩ := Session.faithful_event className read faithful input _
    ((Session.built_record_iff _ record).mp enters.built)
  have own : className input = entry.className := same.symm.trans ofClass
  have running : reached.isHalted entry.className = false := own ▸ enters.running
  have seen := Session.compare_history faithful before keepGoing reached enters.came entry.className running
  obtain ⟨earlier, baseline, attribution, since, history, goodBaseline, located, between⟩ :=
    Session.refused_between reached valid record produced enters.refuses.answered
  have shown := enters.refuses.shown
  rw [history] at shown
  rw [ofClass] at since history
  have goodRecord : record.WellFormed := constructed_well_formed record (constructed record rfl)
  refine ⟨⟨before, input, after, reached, earlier, baseline, record, produced⟩, ?_, ?_⟩
  · exact { place := place, came := enters.came, own := own, running := running, built := enters.built,
            ofClass := ofClass, answered := enters.refuses.answered, since := since, seen := history,
            builtBefore := seen.symm.trans history }
  · rw [shown]
    exact shown_between _ goodBaseline goodRecord attribution located between

end Finding

-- Whether a class is left after its first divergence or not, its histories begin with its first record. The
-- records of a run are read from the tree as the run leaves it.
theorem snapshots_recount_history :
    (∀ (verification : Verification) (now : String) (tree : FileTree) (report : Report),
      (verification.run now tree).1 = .ok report →
        ∃ classes, ((verification.prepare .plain).run ⟨tree, [], []⟩).1 = .ok (report.versions, classes) ∧
          ∀ entry ∈ report.classes, ∀ divergence ∈ entry.divergences, ∃ finding : Finding (String × String),
            finding.OccursIn (fun pair => some pair.2) (verification.readPair (verification.run now tree).2.tree)
              verification.options.keepGoing (Verification.pairs report.versions classes) entry.className ∧
            finding.IsShown divergence) ∧
    ∀ (namespacePrefix : String) (keepGoing : Bool) (inputs : List SingleInput) (now : String) (tree : FileTree)
      (report : Report), (SingleRun.run namespacePrefix keepGoing inputs now tree).1 = .ok report →
        ∀ entry ∈ report.classes, ∀ divergence ∈ entry.divergences, ∃ finding : Finding SingleInput,
          finding.OccursIn (fun _ => none) (SingleRun.readInput namespacePrefix tree) keepGoing inputs
            entry.className ∧
          finding.IsShown divergence := by
  constructor
  · intro verification now tree report reported
    obtain ⟨classes, last, prepared, done, same⟩ := Verification.run_compared verification now tree report reported
    refine ⟨classes, prepared, fun entry member divergence listed => ?_⟩
    rw [same] at member
    exact Finding.of_compared (Verification.read_pair_faithful verification _) _ _ last done entry member divergence
      listed
  · intro namespacePrefix keepGoing inputs now tree report reported entry member divergence listed
    obtain ⟨_, last, done, rfl⟩ := (SingleRun.run_ok_iff _ _ _ _ _ _).mp reported
    exact Finding.of_compared (SingleRun.read_input_faithful namespacePrefix tree) inputs keepGoing last done entry
      member divergence listed

def histories (report : Report) : List (Attribution × List Snapshot) :=
  report.divergences.map fun divergence => (divergence.attribution, divergence.snapshots)

theorem history_listed (result : Except RunError Report) (lists : List (Attribution × List Snapshot))
    (listed : result.toOption.map histories = some lists) (shown : Attribution × List Snapshot)
    (member : shown ∈ lists) :
    ∃ report, result = .ok report ∧ ∃ entry ∈ report.classes, ∃ divergence ∈ entry.divergences,
      (divergence.attribution, divergence.snapshots) = shown := by
  cases result with
  | error error => cases listed
  | ok report =>
      obtain rfl : histories report = lists := Option.some.inj listed
      obtain ⟨divergence, among, same⟩ := List.mem_map.mp member
      obtain ⟨entry, known, within⟩ := List.mem_flatMap.mp among
      exact ⟨report, rfl, entry, known, divergence, within, same⟩

set_option maxRecDepth 10000 in
theorem returning_histories :
    ((returningVerification.keeping true).run "noon" returningTree).1.toOption.map histories =
      some [(.known "m();", [⟨"1", some ["n/X"]⟩, ⟨"2", some ["n/Y"]⟩]),
        (.known "m();", [⟨"1", some ["n/X"]⟩, ⟨"2", some ["n/Y"]⟩, ⟨"3", some ["n/X"]⟩])] := by decide +kernel

def extendedTree : FileTree :=
  ⟨[(["a"], .ofText "public class A"), (["b"], .ofText "  public final void m();")], []⟩

def extendedInputs : List SingleInput :=
  [⟨"1", "/a"⟩, ⟨"2", "/b"⟩]

set_option maxRecDepth 10000 in
theorem extended_histories :
    (SingleRun.run "n/" false extendedInputs "noon" extendedTree).1.toOption.map histories =
      some [(.unknown, [])] := by decide +kernel

theorem snapshots_recount_history_returning :
    (∃ report, ((returningVerification.keeping true).run "noon" returningTree).1 = .ok report ∧
      ∃ entry ∈ report.classes, ∃ divergence ∈ entry.divergences,
        (divergence.attribution, divergence.snapshots) =
          (.known "m();", [⟨"1", some ["n/X"]⟩, ⟨"2", some ["n/Y"]⟩, ⟨"3", some ["n/X"]⟩]) ∧
        ∃ classes, ∃ finding : Finding (String × String),
          finding.OccursIn (fun pair => some pair.2) ((returningVerification.keeping true).readPair
            ((returningVerification.keeping true).run "noon" returningTree).2.tree) true
            (Verification.pairs report.versions classes) entry.className ∧
          finding.IsShown divergence) ∧
    ∃ report, (SingleRun.run "n/" false extendedInputs "noon" extendedTree).1 = .ok report ∧
      ∃ entry ∈ report.classes, ∃ divergence ∈ entry.divergences,
        (divergence.attribution, divergence.snapshots) = (.unknown, []) ∧ ∃ finding : Finding SingleInput,
          finding.OccursIn (fun _ => none) (SingleRun.readInput "n/" extendedTree) false extendedInputs
            entry.className ∧
          finding.IsShown divergence := by
  obtain ⟨report, ran, entry, known, divergence, listed, shown⟩ :=
    history_listed _ _ returning_histories _ (List.mem_cons_of_mem _ List.mem_cons_self)
  obtain ⟨single, ranSingle, only, knownSingle, unnamed, listedSingle, shownSingle⟩ :=
    history_listed _ _ extended_histories _ List.mem_cons_self
  obtain ⟨classes, _, recounted⟩ :=
    snapshots_recount_history.1 (returningVerification.keeping true) "noon" returningTree report ran
  exact ⟨⟨report, ran, entry, known, divergence, listed, shown, classes, recounted entry known divergence listed⟩,
    single, ranSingle, only, knownSingle, unnamed, listedSingle, shownSingle,
    snapshots_recount_history.2 "n/" false extendedInputs "noon" extendedTree single ranSingle only knownSingle
      unnamed listedSingle⟩

end BytecodeParity
