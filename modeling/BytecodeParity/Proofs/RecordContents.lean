import BytecodeParity.Proofs.ReferenceLine
import BytecodeParity.Proofs.RecordInvariant

set_option autoImplicit false

namespace BytecodeParity

-- The names without repetitions, each where it stands first.
structure FirstOccurrences {α : Type} [BEq α] (names kept : List α) : Prop where
  members : ∀ name, name ∈ kept ↔ name ∈ names
  ordered : kept.Pairwise fun a b => names.idxOf a < names.idxOf b

theorem erase_dups_first {α : Type} [BEq α] [LawfulBEq α] (names : List α) :
    FirstOccurrences names names.eraseDups := by
  refine ⟨fun name => List.mem_eraseDups, ?_⟩
  induction names using List.reverseRecOn with
  | nil => exact .nil
  | append_singleton names name ih =>
      have earlier : names.eraseDups.Pairwise fun a b => (names ++ [name]).idxOf a < (names ++ [name]).idxOf b := by
        refine ih.imp_of_mem fun memberA memberB before => ?_
        rwa [List.idxOf_append, if_pos (List.mem_eraseDups.mp memberA), List.idxOf_append,
          if_pos (List.mem_eraseDups.mp memberB)]
      rw [erase_dups_concat]
      split
      · exact earlier
      · next fresh =>
          refine List.pairwise_append.mpr ⟨earlier, List.pairwise_singleton _ _, ?_⟩
          intro other member last lastMember
          rw [List.mem_eraseDups] at member
          rw [List.mem_singleton.mp lastMember, List.idxOf_append, if_pos member, List.idxOf_append,
            if_neg (fun known => fresh (List.contains_iff_mem.mpr known))]
          exact Nat.lt_add_left _ (List.idxOf_lt_length_of_mem member)

namespace ClassRecord

def SymbolsWithin (namespacePrefix : String) (record : ClassRecord) : Prop :=
  ∀ signature symbols, record.implementation? signature = some symbols →
    ∀ symbol ∈ symbols, namespacePrefix.toList <:+: symbol.toList ∧ Text.Bare symbol

theorem of_methods_last (version : String) (className : Option String) (earlier later : List SymbolTable.Row)
    (signature : String) (symbols : List String) (last : signature ∉ later.map (·.1)) :
    (ofMethods version className (earlier ++ (signature, symbols) :: later)).implementation? signature =
      some symbols := by
  have unknown : later.reverse.lookup signature = none := by
    refine SymbolTable.lookup_unknown _ _ fun row member same => ?_
    exact last (same ▸ List.mem_map_of_mem (List.mem_reverse.mp member))
  rw [implementation?, of_methods_find, List.reverse_append, List.reverse_cons, List.append_assoc]
  simp [List.lookup_append, unknown]

theorem built_symbols_within (startsMember : String → Bool) (namespacePrefix version : String)
    (className : Option String) (signatures lines : List String) :
    (Disassembly.builtRecord startsMember namespacePrefix version className signatures lines).SymbolsWithin
      namespacePrefix := by
  intro signature symbols found symbol member
  rw [implementation?, Disassembly.built_find] at found
  split at found
  · obtain rfl := Option.some.inj found
    obtain ⟨line, _, read⟩ := List.mem_filterMap.mp member
    exact symbol_in_namespace namespacePrefix line symbol read
  · cases found

theorem built_listed_within (namespacePrefix version className : String) (listing disassembly : List String)
    (record : ClassRecord)
    (built : (Disassembly.buildListed namespacePrefix version className listing disassembly).outcome = .ok record) :
    record.SymbolsWithin namespacePrefix := by
  obtain ⟨_, rfl⟩ := (Disassembly.build_ok_iff _ _ _ _ _ _ _).mp built
  exact built_symbols_within _ _ _ _ _ _

theorem built_single_within (namespacePrefix version : String) (disassembly : List String) (record : ClassRecord)
    (built : (Disassembly.buildSingle namespacePrefix version disassembly).outcome = .ok record) :
    record.SymbolsWithin namespacePrefix := by
  obtain ⟨collected, collects, rfl⟩ := (Disassembly.build_single_ok_iff _ _ _ _).mp built
  obtain ⟨_, rfl⟩ := (Disassembly.build_ok_iff _ _ _ _ _ _ _).mp collects
  exact built_symbols_within _ _ _ _ _ _

theorem table_signatures_nodup (table : SymbolTable) : table.signatures.Nodup := by
  rw [SymbolTable.signatures, List.nodup_iff_pairwise_ne, List.pairwise_map]
  refine table.ascending.imp fun {row other} before same => ?_
  rw [same] at before
  exact String.lt_irrefl other.1 before

theorem record_contents :
    (∀ record, Constructed record → record.methods.Nodup ∧ record.table.signatures.Nodup ∧
      ∀ signature, signature ∈ record.methods ↔ signature ∈ record.table.signatures) ∧
    (∀ (version : String) (className : Option String) (methods : List SymbolTable.Row),
      FirstOccurrences (methods.map (·.1)) (ofMethods version className methods).methods ∧
      ∀ earlier signature symbols later, methods = earlier ++ (signature, symbols) :: later →
        signature ∉ later.map (·.1) →
        (ofMethods version className methods).implementation? signature = some symbols) ∧
    (∀ (namespacePrefix version className : String) (listing disassembly : List String) (record : ClassRecord),
      (Disassembly.buildListed namespacePrefix version className listing disassembly).outcome = .ok record →
        record.SymbolsWithin namespacePrefix) ∧
    ∀ (namespacePrefix version : String) (disassembly : List String) (record : ClassRecord),
      (Disassembly.buildSingle namespacePrefix version disassembly).outcome = .ok record →
        record.SymbolsWithin namespacePrefix := by
  refine ⟨?_, ?_, built_listed_within, built_single_within⟩
  · intro record constructed
    have good := constructed_well_formed record constructed
    exact ⟨good.1, table_signatures_nodup record.table, fun signature => (good.2 signature).symm⟩
  · intro version className methods
    refine ⟨of_methods_methods version className methods ▸ erase_dups_first _, ?_⟩
    rintro earlier signature symbols later rfl last
    exact of_methods_last version className earlier later signature symbols last

def repeatedMethods : List SymbolTable.Row :=
  [("m()", ["n/Y"]), ("k()", []), ("m()", ["n/X"])]

def spacedLines : List String :=
  ["  public final void m();", "   0: call //  Method \t n/X.f  ", "   3: call // Method j/L.m"]

theorem record_contents_repeated :
    ((ofMethods "1" none repeatedMethods).methods.Nodup ∧
      FirstOccurrences ["m()", "k()", "m()"] (ofMethods "1" none repeatedMethods).methods ∧
      (ofMethods "1" none repeatedMethods).methods = ["m()", "k()"] ∧
      (ofMethods "1" none repeatedMethods).implementation? "m()" = some ["n/X"]) ∧
    (∃ record, (Disassembly.buildListed "n/" "1" "A" spacedLines spacedLines).outcome = .ok record ∧
      record.SymbolsWithin "n/" ∧ record.implementation? "public final void m();" = some ["n/X.f"]) ∧
    ∃ record, (Disassembly.buildSingle "n/" "1" spacedLines).outcome = .ok record ∧
      record.SymbolsWithin "n/" ∧ record.implementation? "public final void m();" = some ["n/X.f"] := by
  obtain ⟨invariant, given, listed, single⟩ := record_contents
  obtain ⟨first, last⟩ := given "1" none repeatedMethods
  have built : (Disassembly.buildListed "n/" "1" "A" spacedLines spacedLines).outcome =
      .ok (.ofMethods "1" (some "A") [("public final void m();", ["n/X.f"])]) := by decide
  have collects : (Disassembly.build Text.startsInked "n/" "1" none
      (Disassembly.declaredSignatures (spacedLines.map Disassembly.stripIndent))
      (spacedLines.map Disassembly.stripIndent)).outcome =
        .ok (.ofMethods "1" none [("public final void m();", ["n/X.f"])]) := by decide
  have builtSingle := (Disassembly.build_single_ok_iff _ _ _ _).mpr ⟨_, collects, rfl⟩
  have implemented := last [("m()", ["n/Y"]), ("k()", [])] "m()" ["n/X"] [] rfl (by simp)
  exact ⟨⟨(invariant _ (.given _ _ _)).1, first, by decide, implemented⟩,
    ⟨_, built, listed _ _ _ _ _ _ built, by decide⟩, _, builtSingle, single _ _ _ _ builtSingle, by decide⟩

end ClassRecord

end BytecodeParity
