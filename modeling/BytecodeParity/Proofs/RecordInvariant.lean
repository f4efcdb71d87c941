import Mathlib.Data.List.Basic
import Mathlib.Data.List.Induction
import Mathlib.Data.List.Nodup
import BytecodeParity.Disassembly
import BytecodeParity.Proofs.TableLookup

set_option autoImplicit false

namespace BytecodeParity

theorem erase_dups_concat {α : Type} [BEq α] [LawfulBEq α] (names : List α) (name : α) :
    (names ++ [name]).eraseDups =
      if names.contains name then names.eraseDups else names.eraseDups ++ [name] := by
  rw [List.eraseDups_append]
  cases known : names.contains name <;> simp_all [List.removeAll, List.eraseDups_cons]

theorem erase_dups_nodup {α : Type} [BEq α] [LawfulBEq α] (names : List α) : names.eraseDups.Nodup := by
  induction names using List.reverseRecOn with
  | nil => exact .nil
  | append_singleton names name ih =>
      rw [erase_dups_concat]
      split
      · exact ih
      · next fresh =>
          refine List.nodup_append.mpr ⟨ih, by simp, ?_⟩
          intro other member last lastMember same
          rw [List.mem_singleton.mp lastMember] at same
          rw [same, List.mem_eraseDups] at member
          exact fresh (List.contains_iff_mem.mpr member)

theorem erase_dups_of_nodup {α : Type} [BEq α] [LawfulBEq α] (names : List α) (distinct : names.Nodup) :
    names.eraseDups = names := by
  induction names using List.reverseRecOn with
  | nil => rfl
  | append_singleton names name ih =>
      obtain ⟨namesDistinct, _, apart⟩ := List.nodup_append.mp distinct
      have fresh : ¬ names.contains name := fun known =>
        apart name (List.contains_iff_mem.mp known) name (by simp) rfl
      rw [erase_dups_concat, if_neg fresh, ih namesDistinct]

namespace ClassRecord

@[refl]
theorem structurally_equal_refl (record : ClassRecord) : record.StructurallyEqual record :=
  ⟨rfl, rfl⟩

instance : Std.Symm StructurallyEqual :=
  ⟨fun _ _ same => ⟨same.1.symm, same.2.symm⟩⟩

instance : Trans StructurallyEqual StructurallyEqual StructurallyEqual :=
  ⟨fun ab bc => ⟨ab.1.trans bc.1, ab.2.trans bc.2⟩⟩

theorem of_methods_concat (version : String) (className : Option String) (rows : List SymbolTable.Row)
    (row : SymbolTable.Row) :
    ofMethods version className (rows ++ [row]) = (ofMethods version className rows).insertMethod row.1 row.2 := by
  simp only [ofMethods, List.foldl_append, List.foldl_cons, List.foldl_nil]

theorem of_methods_version (version : String) (className : Option String) (rows : List SymbolTable.Row) :
    (ofMethods version className rows).version = version := by
  induction rows using List.reverseRecOn with
  | nil => rfl
  | append_singleton rows row ih => simpa only [of_methods_concat, insertMethod] using ih

theorem of_methods_class (version : String) (className : Option String) (rows : List SymbolTable.Row) :
    (ofMethods version className rows).className = className := by
  induction rows using List.reverseRecOn with
  | nil => rfl
  | append_singleton rows row ih => simpa only [of_methods_concat, insertMethod] using ih

-- Of the rows with one signature the last one counts, so the rows are searched from their end.
theorem of_methods_find (version : String) (className : Option String) (rows : List SymbolTable.Row)
    (query : String) : (ofMethods version className rows).table.find? query = rows.reverse.lookup query := by
  induction rows using List.reverseRecOn with
  | nil => rfl
  | append_singleton rows row ih =>
      simp only [of_methods_concat, insertMethod, SymbolTable.find_insert, ih, List.reverse_append,
        List.reverse_singleton, List.singleton_append, SymbolTable.lookup_cons_row]

theorem of_methods_implementation (version : String) (className : Option String) (rows : List SymbolTable.Row)
    (distinct : (rows.map (·.1)).Nodup) (row : SymbolTable.Row) (member : row ∈ rows) :
    (ofMethods version className rows).implementation? row.1 = some row.2 := by
  have reversed : (rows.reverse.map (·.1)).Nodup := by
    rw [List.map_reverse, List.nodup_reverse]
    exact distinct
  rw [implementation?, of_methods_find]
  exact SymbolTable.lookup_of_mem rows.reverse reversed row (List.mem_reverse.mpr member)

theorem of_methods_contains (version : String) (className : Option String) (rows : List SymbolTable.Row)
    (query : String) :
    (ofMethods version className rows).table.contains query = (rows.map (·.1)).contains query := by
  rw [Bool.eq_iff_iff, SymbolTable.contains, of_methods_find, List.lookup_isSome_iff, List.contains_iff_mem]
  constructor
  · rintro ⟨row, member, same⟩
    exact List.mem_map.mpr ⟨row, List.mem_reverse.mp member, (eq_of_beq same).symm⟩
  · intro member
    obtain ⟨row, rowMember, same⟩ := List.mem_map.mp member
    exact ⟨row, List.mem_reverse.mpr rowMember, beq_iff_eq.mpr same.symm⟩

theorem of_methods_methods (version : String) (className : Option String) (rows : List SymbolTable.Row) :
    (ofMethods version className rows).methods = (rows.map (·.1)).eraseDups := by
  induction rows using List.reverseRecOn with
  | nil => rfl
  | append_singleton rows row ih =>
      rw [of_methods_concat, insertMethod, List.map_append, List.map_singleton, erase_dups_concat]
      simp only [of_methods_contains, ih]

theorem of_methods_well_formed (version : String) (className : Option String) (rows : List SymbolTable.Row) :
    (ofMethods version className rows).WellFormed := by
  refine ⟨of_methods_methods version className rows ▸ erase_dups_nodup _, ?_⟩
  intro signature
  rw [← SymbolTable.contains_iff, of_methods_contains, of_methods_methods, List.mem_eraseDups,
    List.contains_iff_mem]

theorem sort_methods_perm (record : ClassRecord) : record.sortMethods.methods.Perm record.methods :=
  List.mergeSort_perm _ _

theorem sort_methods_well_formed (record : ClassRecord) (good : record.WellFormed) :
    record.sortMethods.WellFormed := by
  refine ⟨record.sort_methods_perm.nodup_iff.mpr good.1, ?_⟩
  intro signature
  rw [record.sort_methods_perm.mem_iff]
  exact good.2 signature

end ClassRecord

namespace Disassembly

-- What a successful reading of all bodies gives.
def builtRecord (startsMember : String → Bool) (namespacePrefix version : String) (className : Option String)
    (signatures lines : List String) : ClassRecord :=
  .ofMethods version className (signatures.map fun signature =>
    (signature, ((body? startsMember signatures lines signature).getD []).filterMap (symbolOf? namespacePrefix)))

theorem build_ok_iff (startsMember : String → Bool) (namespacePrefix version : String)
    (className : Option String) (signatures lines : List String) (record : ClassRecord) :
    (build startsMember namespacePrefix version className signatures lines).outcome = .ok record ↔
      (∀ signature ∈ signatures, (body? startsMember signatures lines signature).isSome) ∧
        record = builtRecord startsMember namespacePrefix version className signatures lines := by
  cases missing : signatures.find? fun signature => (body? startsMember signatures lines signature).isNone with
  | none =>
      rw [List.find?_eq_none] at missing
      simp only [build, List.find?_eq_none.mpr missing, Except.ok.injEq]
      constructor
      · intro same
        refine ⟨fun signature member => ?_, same.symm⟩
        rw [Option.isSome_iff_ne_none]
        simpa using missing signature member
      · intro built
        exact built.2.symm
  | some signature =>
      have absent := List.find?_some missing
      have member := List.mem_of_find?_eq_some missing
      simp only [build, missing, reduceCtorEq, false_iff, not_and]
      intro found
      have present := found signature member
      rw [Option.isNone_iff_eq_none.mp absent] at present
      cases present

theorem built_methods (startsMember : String → Bool) (namespacePrefix version : String) (className : Option String)
    (signatures lines : List String) :
    (builtRecord startsMember namespacePrefix version className signatures lines).methods = signatures.eraseDups := by
  rw [builtRecord, ClassRecord.of_methods_methods, List.map_map]
  exact congrArg List.eraseDups (List.map_id signatures)

theorem built_find (startsMember : String → Bool) (namespacePrefix version : String) (className : Option String)
    (signatures lines : List String) (signature : String) :
    (builtRecord startsMember namespacePrefix version className signatures lines).table.find? signature =
      if signature ∈ signatures then
        some (((body? startsMember signatures lines signature).getD []).filterMap (symbolOf? namespacePrefix))
      else none := by
  rw [builtRecord, ClassRecord.of_methods_find, ← List.map_reverse]
  by_cases known : signature ∈ signatures
  · rw [if_pos known, List.lookup_graph _ (List.mem_reverse.mpr known)]
  · rw [if_neg known]
    refine SymbolTable.lookup_unknown _ _ fun row member same => ?_
    obtain ⟨other, isOther, rfl⟩ := List.mem_map.mp member
    exact known (same ▸ List.mem_reverse.mp isOther)

theorem build_single_ok_iff (namespacePrefix version : String) (disassembly : List String) (record : ClassRecord) :
    (buildSingle namespacePrefix version disassembly).outcome = .ok record ↔
      ∃ collected, (build Text.startsInked namespacePrefix version none
        (declaredSignatures (disassembly.map stripIndent)) (disassembly.map stripIndent)).outcome = .ok collected ∧
          collected.sortMethods = record := by
  simp only [buildSingle]
  cases (build Text.startsInked namespacePrefix version none
      (declaredSignatures (disassembly.map stripIndent)) (disassembly.map stripIndent)).outcome with
  | error missing => simp [Except.map]
  | ok collected => simp [Except.map]

end Disassembly

namespace ClassRecord

-- A record that one of the constructions gives: from given methods, from a listing with its
-- disassembly or from a single disassembly.
inductive Constructed : ClassRecord → Prop
  | given (version : String) (className : Option String) (methods : List SymbolTable.Row) :
      Constructed (.ofMethods version className methods)
  | listed (namespacePrefix version className : String) (listing disassembly : List String) (record : ClassRecord)
      (built : (Disassembly.buildListed namespacePrefix version className listing disassembly).outcome = .ok record) :
      Constructed record
  | single (namespacePrefix version : String) (disassembly : List String) (record : ClassRecord)
      (built : (Disassembly.buildSingle namespacePrefix version disassembly).outcome = .ok record) :
      Constructed record

theorem constructed_well_formed (record : ClassRecord) (constructed : Constructed record) : record.WellFormed := by
  cases constructed with
  | given version className methods => exact of_methods_well_formed version className methods
  | listed namespacePrefix version className listing disassembly _ built =>
      obtain ⟨_, rfl⟩ := (Disassembly.build_ok_iff _ _ _ _ _ _ _).mp built
      exact of_methods_well_formed version (some className) _
  | single namespacePrefix version disassembly _ built =>
      obtain ⟨collected, outcome, rfl⟩ := (Disassembly.build_single_ok_iff _ _ _ _).mp built
      obtain ⟨_, rfl⟩ := (Disassembly.build_ok_iff _ _ _ _ _ _ _).mp outcome
      exact sort_methods_well_formed _ (of_methods_well_formed version none _)

end ClassRecord

end BytecodeParity
