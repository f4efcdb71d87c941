import BytecodeParity.ClassRecord

/-!
The check over a whole run: within every class each record equals the one before it. It derives the
answer anew from all records, so an error in the incremental comparison cannot pass.
-/

set_option autoImplicit false

namespace BytecodeParity

structure ClassGroup where
  className : Option String
  records : List ClassRecord
deriving DecidableEq

namespace ClassGroup

def place (record : ClassRecord) : List ClassGroup → List ClassGroup
  | [] => [⟨record.className, [record]⟩]
  | group :: rest =>
      if group.className = record.className then { group with records := group.records ++ [record] } :: rest
      else group :: place record rest

def ofRecords (records : List ClassRecord) : List ClassGroup :=
  records.foldl (fun groups record => place record groups) []

def consistent : List ClassRecord → Bool
  | a :: b :: rest => decide (a.StructurallyEqual b) && consistent (b :: rest)
  | _ => true

def isConsistent (group : ClassGroup) : Bool :=
  consistent group.records

end ClassGroup

namespace Sanity

def failureMessage : String :=
  "Bytecodes differ somewhere! The built-in checks did not catch that. Mappings issue will arise."

def differing (records : List ClassRecord) : List ClassGroup :=
  (ClassGroup.ofRecords records).filter fun group => !group.isConsistent

def check (records : List ClassRecord) : Bool :=
  (differing records).isEmpty

end Sanity

end BytecodeParity
