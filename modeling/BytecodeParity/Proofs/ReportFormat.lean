import BytecodeParity.Report.Json
import BytecodeParity.Report.Text

set_option autoImplicit false

namespace BytecodeParity

namespace Json

theorem field_of_mem (fields : List (String × Json)) (distinct : (fields.map (·.1)).Nodup) (name : String)
    (value : Json) (member : (name, value) ∈ fields) : field? name fields = some (some value) := by
  have single : valuesOf name fields = [value] := by
    obtain ⟨before, after, rfl⟩ := List.append_of_mem member
    simp only [List.map_append, List.map_cons, List.nodup_append, List.nodup_cons] at distinct
    obtain ⟨_, ⟨notAfter, _⟩, apart⟩ := distinct
    have noneBefore : before.filter (fun field => field.1 = name) = [] := by
      refine List.filter_eq_nil_iff.mpr fun field old same => ?_
      exact apart field.1 (List.mem_map_of_mem old) name (List.mem_cons_self ..) (of_decide_eq_true same)
    have noneAfter : after.filter (fun field => field.1 = name) = [] := by
      refine List.filter_eq_nil_iff.mpr fun field new same => notAfter ?_
      exact of_decide_eq_true same ▸ List.mem_map_of_mem new
    simp [valuesOf, noneBefore, noneAfter]
  rw [field?, single]

section Decoding

variable {α : Type} {encode : α → Json} {decode : Json → Option α}

theorem list_of_encoded (inverse : ∀ value, decode (encode value) = some value) (values : List α) :
    listOf? decode (.list (values.map encode)) = some values := by
  have decoded : (values.map encode).mapM decode = some values := by
    induction values with
    | nil => rfl
    | cons value values ih =>
        rw [List.map_cons, List.mapM_cons, inverse, ih]
        rfl
  exact decoded

theorem nullable_of_encoded (inverse : ∀ value, decode (encode value) = some value)
    (given : ∀ value, encode value ≠ .null) (value : Option α) :
    nullable? decode (ofOption encode value) = some value := by
  cases value with
  | none => rfl
  | some value =>
      have read : nullable? decode (encode value) = (decode (encode value)).map some := by
        cases written : encode value with
        | null => exact absurd written (given value)
        | _ => rfl
      rw [ofOption, read, inverse]
      rfl

end Decoding

theorem text_of_text (value : String) : text? (.text value) = some value := rfl

theorem texts_of_texts (texts : List String) : texts? (ofTexts texts) = some texts :=
  list_of_encoded text_of_text texts

theorem readable_fields (fields : List (String × Json)) (readable : ∀ field ∈ fields, field.2.isReadable) :
    areReadableFields fields := by
  induction fields with
  | nil => rfl
  | cons field fields ih =>
      rw [areReadableFields, Bool.and_eq_true]
      exact ⟨readable field (List.mem_cons_self ..),
        ih fun other member => readable other (List.mem_cons_of_mem _ member)⟩

theorem readable_list {α : Type} (encode : α → Json) (values : List α)
    (readable : ∀ value, (encode value).isReadable) : (Json.list (values.map encode)).isReadable := by
  rw [isReadable]
  induction values with
  | nil => rfl
  | cons value values ih =>
      rw [List.map_cons, areReadable, readable, ih]
      rfl

theorem readable_option {α : Type} (encode : α → Json) (value : Option α)
    (readable : ∀ value, (encode value).isReadable) : (ofOption encode value).isReadable := by
  cases value with
  | none => rfl
  | some value => exact readable value

end Json

theorem RunMode.of_json_key (mode : RunMode) : RunMode.ofJson? (.text mode.key) = some mode := by
  cases mode <;> rfl

theorem BuildFailure.of_json_to_json (failure : BuildFailure) : BuildFailure.ofJson? failure.toJson = some failure :=
  rfl

namespace Snapshot

theorem of_json_to_json (snapshot : Snapshot) : ofJson? snapshot.toJson = some snapshot := by
  have implementation := Json.nullable_of_encoded Json.texts_of_texts (by simp [Json.ofTexts]) snapshot.implementation
  have fields : Json.record? ["version", "implementation"] snapshot.toJson =
      some [some (.text snapshot.version), some (.ofOption .ofTexts snapshot.implementation)] := rfl
  simp only [ofJson?, fields, Option.getD_some, implementation]
  rfl

theorem to_json_readable (snapshot : Snapshot) : snapshot.toJson.isReadable := by
  rw [toJson, Json.isReadable]
  apply Json.readable_fields
  simp only [List.mem_cons, List.not_mem_nil, or_false, forall_eq_or_imp, forall_eq]
  exact ⟨rfl, Json.readable_option _ _ fun texts => Json.readable_list _ texts fun _ => rfl⟩

end Snapshot

namespace Divergence

def fields (divergence : Divergence) : List (String × Json) :=
  [("class_name", .ofOption .text divergence.className), ("baseline_version", .text divergence.baselineVersion),
    ("version", .text divergence.version)] ++
  divergence.attribution.toFields ++ [("snapshots", .list (divergence.snapshots.map Snapshot.toJson))]

theorem field_names_distinct (divergence : Divergence) : (divergence.fields.map (·.1)).Nodup := by
  obtain ⟨className, baselineVersion, version, attribution, snapshots⟩ := divergence
  cases attribution with
  | known method =>
      have names : ["class_name", "baseline_version", "version", "kind", "method", "snapshots"].Nodup := by decide
      exact names
  | unknown =>
      have names : ["class_name", "baseline_version", "version", "kind", "snapshots"].Nodup := by decide
      exact names

theorem fields_readable (divergence : Divergence) : Json.areReadableFields divergence.fields := by
  apply Json.readable_fields
  intro field member
  simp only [fields, List.mem_append, List.mem_cons, List.not_mem_nil, or_false] at member
  rcases member with ((rfl | rfl | rfl) | spread) | rfl
  · exact Json.readable_option _ _ fun _ => rfl
  · rfl
  · rfl
  · cases attributed : divergence.attribution with
    | known method =>
        rw [attributed] at spread
        simp only [Attribution.toFields, List.mem_cons, List.not_mem_nil, or_false] at spread
        rcases spread with rfl | rfl <;> rfl
    | unknown =>
        rw [attributed] at spread
        simp only [Attribution.toFields, List.mem_cons, List.not_mem_nil, or_false] at spread
        rw [spread]
        rfl
  · exact Json.readable_list _ _ Snapshot.to_json_readable

theorem field_of_own (divergence : Divergence) (name : String) (value : Json)
    (member : (name, value) ∈ divergence.fields) : Json.field? name divergence.fields = some (some value) :=
  Json.field_of_mem _ divergence.field_names_distinct name value member

theorem attribution_of_fields (divergence : Divergence) :
    Attribution.ofFields? divergence.fields = some divergence.attribution := by
  cases attributed : divergence.attribution with
  | known method =>
      have kind := divergence.field_of_own "kind" (.text "known")
        (by simp [fields, attributed, Attribution.toFields])
      have named := divergence.field_of_own "method" (.text method)
        (by simp [fields, attributed, Attribution.toFields])
      rw [Attribution.ofFields?, kind, named]
      rfl
  | unknown =>
      have kind := divergence.field_of_own "kind" (.text "unknown")
        (by simp [fields, attributed, Attribution.toFields])
      rw [Attribution.ofFields?, kind]
      rfl

theorem of_json_to_json (divergence : Divergence) : ofJson? divergence.toJson = some divergence := by
  have written : divergence.toJson = .object divergence.fields := rfl
  have className := divergence.field_of_own "class_name" (.ofOption .text divergence.className) (by simp [fields])
  have baselineVersion := divergence.field_of_own "baseline_version" (.text divergence.baselineVersion)
    (by simp [fields])
  have version := divergence.field_of_own "version" (.text divergence.version) (by simp [fields])
  have snapshots := divergence.field_of_own "snapshots" (.list (divergence.snapshots.map Snapshot.toJson))
    (by simp [fields])
  have named := Json.nullable_of_encoded Json.text_of_text (by simp) divergence.className
  have shown := Json.list_of_encoded Snapshot.of_json_to_json divergence.snapshots
  rw [written, ofJson?, className, baselineVersion, version, snapshots]
  simp only [Option.bind_eq_bind, Option.bind_some, Option.getD_some, named, shown,
    attribution_of_fields, fields_readable, if_true]
  rfl

end Divergence

namespace ClassReport

theorem record_of_fields (report : ClassReport) :
    Json.record? ["class_name", "versions", "divergences", "build_failures", "halted"] report.toJson =
      some [report.className.map .text, some (.ofTexts report.versions),
        some (.list (report.divergences.map Divergence.toJson)),
        some (.list (report.buildFailures.map BuildFailure.toJson)), some (.bool report.halted)] := by
  obtain ⟨className, versions, divergences, buildFailures, halted⟩ := report
  cases className <;> rfl

theorem of_json_to_json (report : ClassReport) : ofJson? report.toJson = some report := by
  have versions := Json.texts_of_texts report.versions
  have divergences := Json.list_of_encoded Divergence.of_json_to_json report.divergences
  have buildFailures := Json.list_of_encoded BuildFailure.of_json_to_json report.buildFailures
  have className : ((report.className.map Json.text).getD .null).nullable? Json.text? = some report.className := by
    cases report.className <;> rfl
  simp only [ofJson?, record_of_fields, Option.bind_eq_bind, className, versions, divergences, buildFailures]
  rfl

end ClassReport

namespace Report

theorem of_json_to_json (report : Report) : ofJson? report.toJson = some report := by
  have fields : Json.record? ["generated_at", "mode", "versions", "classes"] report.toJson =
      some [some (.text report.generatedAt), some (.text report.mode.key), some (.ofTexts report.versions),
        some (.list (report.classes.map ClassReport.toJson))] := rfl
  have versions := Json.texts_of_texts report.versions
  have classes := Json.list_of_encoded ClassReport.of_json_to_json report.classes
  simp only [ofJson?, fields, Option.bind_eq_bind, RunMode.of_json_key, versions, classes]
  rfl

end Report

-- A report is read back from its written form, so reports that are written alike are one report, and
-- what is read back is rendered as before.
theorem written_report_lossless :
    (∀ report : Report, Report.ofJson? report.toJson = some report) ∧
      (∀ report other : Report, report.toJson = other.toJson ↔ report = other) ∧
      ∀ report : Report, (Report.ofJson? report.toJson).map Report.render = some report.render := by
  refine ⟨Report.of_json_to_json, ?_, ?_⟩
  · intro report other
    constructor
    · intro same
      have read := Report.of_json_to_json report
      rw [same, Report.of_json_to_json other] at read
      exact (Option.some.inj read).symm
    · rintro rfl
      rfl
  · intro report
    rw [Report.of_json_to_json]
    rfl

def mixedReport : Report :=
  ⟨"noon", .perClass, ["1", "2", "3"],
    [⟨some "A", ["1"], [⟨some "A", "1", "2", .known "m()", [⟨"1", some ["n/X"]⟩, ⟨"2", some []⟩, ⟨"3", none⟩]⟩,
        ⟨some "A", "2", "3", .unknown, []⟩], [], false⟩,
      ⟨none, [], [], [⟨"1", "k()", "missing"⟩], true⟩]⟩

def renamedReport : Report :=
  { mixedReport with
    classes := mixedReport.classes.map fun report => { report with className := some (report.className.getD "") } }

theorem written_report_lossless_mixed :
    Report.ofJson? mixedReport.toJson = some mixedReport ∧ mixedReport.toJson ≠ renamedReport.toJson ∧
      (Report.ofJson? mixedReport.toJson).map Report.render = some mixedReport.render := by
  refine ⟨written_report_lossless.1 mixedReport, fun same => ?_, written_report_lossless.2.2 mixedReport⟩
  have equal := (written_report_lossless.2.1 mixedReport renamedReport).mp same
  revert equal
  decide

end BytecodeParity
