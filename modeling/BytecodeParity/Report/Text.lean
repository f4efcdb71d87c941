import BytecodeParity.Report

set_option autoImplicit false

namespace BytecodeParity

namespace Report

def successMessage : String :=
  "All bytecodes are identical! No mapping issues will arise!"

def label (className : Option String) : String :=
  className.getD "(single class)"

def line (text : String) : String :=
  text ++ "\n"

end Report

namespace Snapshot

def symbolLines : Option (List String) → List String
  | none => ["  \t(method absent)"]
  | some [] => ["  \t(no external references)"]
  | some symbols => symbols.map fun symbol => "  \t" ++ symbol

def render (method : String) (snapshot : Snapshot) : String :=
  String.join ((["  Bytecode " ++ snapshot.version ++ ":", "  " ++ method] ++
    symbolLines snapshot.implementation).map Report.line)

end Snapshot

namespace Divergence

def render (divergence : Divergence) : String :=
  let label := Report.label divergence.className
  match divergence.attribution with
  | .known method =>
      Report.line ("- " ++ label ++ ": There is a mappings issue with " ++ method) ++
        String.join (divergence.snapshots.map (Snapshot.render method))
  | .unknown =>
      Report.line ("- " ++ label ++ ": bytecode differs between " ++ divergence.baselineVersion ++ " and " ++
        divergence.version ++ ", but no method could be named; inspect both disassemblies manually")

end Divergence

namespace ClassReport

def render (report : ClassReport) : String :=
  let label := Report.label report.className
  if report.isConsistent then
    Report.line ("- " ++ label ++ ": consistent across " ++ toString report.versions.length ++ " version(s)")
  else
    String.join (report.buildFailures.map fun failure =>
      Report.line ("- " ++ label ++ ": could not build record for " ++ failure.version ++ ": " ++ failure.message)) ++
    String.join (report.divergences.map Divergence.render) ++
    (if report.halted then Report.line ("  (later versions of " ++ label ++ " were not compared)") else "")

end ClassReport

namespace Report

def render (report : Report) : String :=
  line ("Versions (" ++ toString report.versions.length ++ "): " ++ ", ".intercalate report.versions) ++
    String.join (report.classes.map ClassReport.render) ++
    (if report.success then line successMessage
    else line ("Found " ++ toString report.divergences.length ++ " divergence(s) and " ++
      toString report.buildFailures.length ++ " build failure(s)."))

end Report

end BytecodeParity
