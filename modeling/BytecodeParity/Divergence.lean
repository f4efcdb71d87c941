import BytecodeParity.ClassRecord

/-!
The comparison of two records of one class. The records are walked position by position in baseline
order, first the signature and then that method's symbols; the first difference decides, and it is
attributed to a single method where one can be named.
-/

set_option autoImplicit false

namespace BytecodeParity

inductive Attribution where
  | known (method : String)
  | unknown
deriving DecidableEq, Repr

namespace Attribution

def message : Attribution → String
  | .known method => "method \x60" ++ method ++ "\x60 differs"
  | .unknown => "unattributed mismatch"

def method? : Attribution → Option String
  | .known method => some method
  | .unknown => none

def isKnown (attribution : Attribution) : Bool :=
  attribution.method?.isSome

end Attribution

structure Snapshot where
  version : String
  /-- `none` when the version does not declare the method. -/
  implementation : Option (List String)
deriving DecidableEq, Repr

def Snapshot.ofRecord (method : String) (record : ClassRecord) : Snapshot :=
  ⟨record.version, record.implementation? method⟩

structure Divergence where
  className : Option String
  baselineVersion : String
  version : String
  attribution : Attribution
  /-- The named method in every version seen, oldest first; empty when no method is named. -/
  snapshots : List Snapshot
deriving DecidableEq, Repr

namespace Divergence

def message (divergence : Divergence) : String :=
  "Bytecode of " ++ classLabel divergence.className ++ " diverged between " ++ divergence.baselineVersion ++
    " and " ++ divergence.version ++ ": " ++ divergence.attribution.message

def snapshotsOf (attribution : Attribution) (records : List ClassRecord) : List Snapshot :=
  match attribution with
  | .known method => records.map (Snapshot.ofRecord method)
  | .unknown => []

def between (baseline record : ClassRecord) (attribution : Attribution) : Divergence :=
  { className := record.className
    baselineVersion := baseline.version
    version := record.version
    attribution := attribution
    snapshots := snapshotsOf attribution [baseline, record] }

def withHistory (divergence : Divergence) (records : List ClassRecord) : Divergence :=
  match divergence.attribution with
  | .known method => { divergence with snapshots := records.map (Snapshot.ofRecord method) }
  | .unknown => divergence

end Divergence

namespace ClassRecord

/-- Attributes two signatures that differ at one position; a record that has ended gives none. -/
def attributeMismatch (baseline record : ClassRecord) (expected actual : Option String) : Attribution :=
  match expected.filter fun signature => !record.declares signature with
  | some removed => .known removed
  | none =>
      match actual with
      | none => .unknown
      | some signature =>
          if baseline.declares signature then .known signature
          else
            match (record.ownerOf? signature).or (baseline.ownerOf? signature) with
            | some owner => .known owner
            | none => .unknown

def locateFrom (baseline record : ClassRecord) : List String → List String → Option Attribution
  | [], [] => none
  | expected :: _, [] => some (attributeMismatch baseline record (some expected) none)
  | [], actual :: _ => some (attributeMismatch baseline record none (some actual))
  | expected :: baselineRest, actual :: recordRest =>
      if expected = actual then
        if (baseline.implementation? expected).getD [] = (record.implementation? expected).getD [] then
          locateFrom baseline record baselineRest recordRest
        else some (.known expected)
      else some (attributeMismatch baseline record (some expected) (some actual))

def locateDivergence (baseline record : ClassRecord) : Option Attribution :=
  locateFrom baseline record baseline.methods record.methods

end ClassRecord

end BytecodeParity
