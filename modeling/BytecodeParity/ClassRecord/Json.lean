import BytecodeParity.ClassRecord
import BytecodeParity.Json.Basic

/-!
Class records as JSON. The class name is left out when there is none, and a decoded record is taken
as it stands: its methods and its table need not fit together.
-/

set_option autoImplicit false

namespace BytecodeParity.ClassRecord

def fieldNames : List String := ["version", "class_name", "methods", "method_impls"]

def toJson (record : ClassRecord) : Json :=
  .object <|
    [("version", .text record.version)] ++
    (record.className.map fun name => ("class_name", Json.text name)).toList ++
    [("methods", .ofTexts record.methods),
      ("method_impls", .object (record.table.rows.map fun row => (row.1, .ofTexts row.2)))]

def rowOfJson? (signature : String) (symbols : Json) : Option SymbolTable.Row :=
  symbols.texts?.map fun symbols => (signature, symbols)

def tableOfJson? : Json → Option SymbolTable
  | .object fields => do
      let rows ← fields.mapM fun (signature, symbols) => rowOfJson? signature symbols
      return .ofRows rows
  | _ => none

def ofJson? (json : Json) : Option ClassRecord :=
  match Json.record? fieldNames json with
  | some [some version, className, some methods, some table] => do
      return {
        version := ← version.text?
        className := ← (className.getD .null).nullable? Json.text?
        methods := ← methods.texts?
        table := ← tableOfJson? table }
  | _ => none

end BytecodeParity.ClassRecord
