import BytecodeParity.Json.Basic
import BytecodeParity.Report

set_option autoImplicit false

namespace BytecodeParity

namespace RunMode

def key : RunMode → String
  | .perClass => "per_class"
  | .single => "legacy"

def ofKey? (key : String) : Option RunMode :=
  if key = perClass.key then some perClass else if key = single.key then some single else none

def ofJson? : Json → Option RunMode
  | .text key => ofKey? key
  | .object [(key, .null)] => ofKey? key
  | _ => none

end RunMode

namespace BuildFailure

def toJson (failure : BuildFailure) : Json :=
  .object [("version", .text failure.version), ("signature", .text failure.signature),
    ("message", .text failure.message)]

def ofJson? (json : Json) : Option BuildFailure :=
  match Json.record? ["version", "signature", "message"] json with
  | some [some version, some signature, some message] => do
      return ⟨← version.text?, ← signature.text?, ← message.text?⟩
  | _ => none

end BuildFailure

namespace Snapshot

def toJson (snapshot : Snapshot) : Json :=
  .object [("version", .text snapshot.version),
    ("implementation", .ofOption .ofTexts snapshot.implementation)]

def ofJson? (json : Json) : Option Snapshot :=
  match Json.record? ["version", "implementation"] json with
  | some [some version, implementation] => do
      return ⟨← version.text?, ← (implementation.getD .null).nullable? Json.texts?⟩
  | _ => none

end Snapshot

namespace Attribution

def toFields : Attribution → List (String × Json)
  | .known method => [("kind", .text "known"), ("method", .text method)]
  | .unknown => [("kind", .text "unknown")]

/-- Whether a value names the kind, by its word or by its place among the kinds. -/
def isKind (word place : String) (json : Json) : Bool :=
  match json with
  | .text value => value = word
  | .number digits => digits = place
  | _ => false

def ofFields? (fields : List (String × Json)) : Option Attribution := do
  let kind ← (← Json.field? "kind" fields)
  if isKind "known" "0" kind then
    let method ← (← Json.field? "method" fields)
    return .known (← method.text?)
  else if isKind "unknown" "1" kind then return .unknown
  else none

end Attribution

namespace Divergence

def toJson (divergence : Divergence) : Json :=
  .object <|
    [("class_name", .ofOption .text divergence.className),
      ("baseline_version", .text divergence.baselineVersion),
      ("version", .text divergence.version)] ++
    divergence.attribution.toFields ++
    [("snapshots", .list (divergence.snapshots.map Snapshot.toJson))]

def ofJson? : Json → Option Divergence
  | .object fields => do
      let className ← Json.field? "class_name" fields
      let baselineVersion ← (← Json.field? "baseline_version" fields)
      let version ← (← Json.field? "version" fields)
      let snapshots ← (← Json.field? "snapshots" fields)
      if Json.areReadableFields fields then
        return {
          className := ← (className.getD .null).nullable? Json.text?
          baselineVersion := ← baselineVersion.text?
          version := ← version.text?
          attribution := ← Attribution.ofFields? fields
          snapshots := ← snapshots.listOf? Snapshot.ofJson? }
      else none
  | _ => none

end Divergence

namespace ClassReport

def toJson (report : ClassReport) : Json :=
  .object <|
    (report.className.map fun name => ("class_name", Json.text name)).toList ++
    [("versions", .ofTexts report.versions),
      ("divergences", .list (report.divergences.map Divergence.toJson)),
      ("build_failures", .list (report.buildFailures.map BuildFailure.toJson)),
      ("halted", .bool report.halted)]

def ofJson? (json : Json) : Option ClassReport :=
  match Json.record? ["class_name", "versions", "divergences", "build_failures", "halted"] json with
  | some [className, some versions, some divergences, some buildFailures, some halted] => do
      return {
        className := ← (className.getD .null).nullable? Json.text?
        versions := ← versions.texts?
        divergences := ← divergences.listOf? Divergence.ofJson?
        buildFailures := ← buildFailures.listOf? BuildFailure.ofJson?
        halted := ← halted.bool? }
  | _ => none

end ClassReport

namespace Report

def toJson (report : Report) : Json :=
  .object [("generated_at", .text report.generatedAt), ("mode", .text report.mode.key),
    ("versions", .ofTexts report.versions), ("classes", .list (report.classes.map ClassReport.toJson))]

def ofJson? (json : Json) : Option Report :=
  match Json.record? ["generated_at", "mode", "versions", "classes"] json with
  | some [some generatedAt, some mode, some versions, some classes] => do
      return {
        generatedAt := ← generatedAt.text?
        mode := ← RunMode.ofJson? mode
        versions := ← versions.texts?
        classes := ← classes.listOf? ClassReport.ofJson? }
  | _ => none

end Report

end BytecodeParity
