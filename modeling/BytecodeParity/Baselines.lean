import BytecodeParity.Divergence

/-!
Rolling baselines. The first record of a class becomes its baseline; every later record is compared
with the baseline and takes its place, also when the two differ, so each version is checked against
the version right before it.
-/

set_option autoImplicit false

namespace BytecodeParity

inductive Accepted where
  | baseline
  | compared (previousVersion : String)
deriving DecidableEq, Repr

structure Baselines where
  records : List ClassRecord
deriving DecidableEq

namespace Baselines

def empty : Baselines := ⟨[]⟩

def find? (baselines : Baselines) (className : Option String) : Option ClassRecord :=
  baselines.records.find? fun record => record.className = className

def put (baselines : Baselines) (record : ClassRecord) : Baselines :=
  ⟨baselines.records.filter (fun other => other.className ≠ record.className) ++ [record]⟩

def size (baselines : Baselines) : Nat :=
  baselines.records.length

def judge (previous : Option ClassRecord) (record : ClassRecord) : Except Divergence Accepted :=
  match previous with
  | none => .ok .baseline
  | some baseline =>
      match ClassRecord.locateDivergence baseline record with
      | none => .ok (.compared baseline.version)
      | some attribution => .error (.between baseline record attribution)

def accumulate (baselines : Baselines) (record : ClassRecord) : Except Divergence Accepted × Baselines :=
  (judge (baselines.find? record.className) record, baselines.put record)

end Baselines

end BytecodeParity
