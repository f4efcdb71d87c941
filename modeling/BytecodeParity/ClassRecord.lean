import BytecodeParity.SymbolTable

/-!
The record of one class as compiled for one version: its methods in order and, for every method,
the symbols of the versioned namespace that its body refers to. Signatures and symbols are kept as
the exact text that the disassembler printed.
-/

set_option autoImplicit false

namespace BytecodeParity

structure ClassRecord where
  version : String
  /-- A class that is given as single files carries no name. -/
  className : Option String
  methods : List String
  table : SymbolTable
deriving DecidableEq

namespace ClassRecord

def empty (version : String) (className : Option String) : ClassRecord :=
  ⟨version, className, [], .empty⟩

/-- Adds a method. A signature that is known already keeps its position and takes the new symbols. -/
def insertMethod (record : ClassRecord) (signature : String) (symbols : List String) : ClassRecord :=
  { record with
    methods := if record.table.contains signature then record.methods else record.methods ++ [signature]
    table := record.table.insert signature symbols }

/-- The record of the methods in their order. A repeated signature keeps its first position and its
last symbols. -/
def ofMethods (version : String) (className : Option String) (methods : List SymbolTable.Row) : ClassRecord :=
  methods.foldl (fun record method => record.insertMethod method.1 method.2) (empty version className)

def sortMethods (record : ClassRecord) : ClassRecord :=
  { record with methods := record.methods.mergeSort fun a b => decide (a ≤ b) }

def implementation? (record : ClassRecord) (signature : String) : Option (List String) :=
  record.table.find? signature

def declares (record : ClassRecord) (signature : String) : Bool :=
  record.table.contains signature

def ownerOf? (record : ClassRecord) (symbol : String) : Option String :=
  record.methods.find? fun signature => ((record.implementation? signature).getD []).contains symbol

/-- The same methods in the same order with the same implementations. Version and class name do not
count. -/
def StructurallyEqual (a b : ClassRecord) : Prop :=
  a.methods = b.methods ∧ a.table = b.table

instance (a b : ClassRecord) : Decidable (StructurallyEqual a b) :=
  inferInstanceAs (Decidable (_ ∧ _))

/-- Every declared method has exactly one row in the table, and the table has no others. -/
def WellFormed (record : ClassRecord) : Prop :=
  record.methods.Nodup ∧ ∀ signature, signature ∈ record.table.signatures ↔ signature ∈ record.methods

end ClassRecord

def classLabel (className : Option String) : String :=
  className.getD "<unnamed class>"

end BytecodeParity
