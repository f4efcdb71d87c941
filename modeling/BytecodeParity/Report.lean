import BytecodeParity.Disassembly
import BytecodeParity.Divergence

set_option autoImplicit false

namespace BytecodeParity

inductive RunMode where
  | perClass
  | single
deriving DecidableEq, Repr

structure BuildFailure where
  version : String
  signature : String
  message : String
deriving DecidableEq, Repr

def BuildFailure.ofMissing (missing : MissingBody) : BuildFailure :=
  ⟨missing.version, missing.signature, missing.message⟩

structure ClassReport where
  className : Option String
  /-- The versions whose record became the first baseline or equalled the baseline. -/
  versions : List String
  divergences : List Divergence
  buildFailures : List BuildFailure
  /-- Set when the class was left after a divergence. -/
  halted : Bool
deriving DecidableEq, Repr

namespace ClassReport

def empty (className : Option String) : ClassReport :=
  ⟨className, [], [], [], false⟩

def isConsistent (report : ClassReport) : Bool :=
  report.divergences.isEmpty && report.buildFailures.isEmpty

end ClassReport

structure Report where
  generatedAt : String
  mode : RunMode
  versions : List String
  classes : List ClassReport
deriving DecidableEq, Repr

namespace Report

def success (report : Report) : Bool :=
  report.classes.all ClassReport.isConsistent

def divergences (report : Report) : List Divergence :=
  report.classes.flatMap (·.divergences)

def buildFailures (report : Report) : List BuildFailure :=
  report.classes.flatMap (·.buildFailures)

end Report

end BytecodeParity
