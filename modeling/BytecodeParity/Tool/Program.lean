import BytecodeParity.Pattern.Parser
import BytecodeParity.Process.Spawn
import BytecodeParity.Tool

/-!
The tools as programs. The extraction program is called with `-xf` and the archive; the disassembler
is called twice, first with `-c`, and has to print something each time.
-/

set_option autoImplicit false

namespace BytecodeParity.Tool

def extractorName : String := "tar"

def disassemblerName : String := "javap"

def disassemblerVariable : String := "BYTECODE_DIFF_JAVAP"

def runProgram (tool : String) (environment : List (String × String)) (invocation : Invocation) (tree : FileTree) :
    Except ToolError Outcome × FileTree :=
  match Process.run tree environment invocation with
  | .error cause => (.error (.notStarted tool cause), tree)
  | .ok (outcome, tree) =>
      if outcome.status.success then (.ok outcome, tree)
      else (.error (.failed tool outcome.status (Text.trim outcome.errText)), tree)

def extract (environment : List (String × String)) (program archive folder : String) (tree : FileTree) :
    Except ToolError Unit × FileTree :=
  match runProgram extractorName environment ⟨program, ["-xf", archive], folder⟩ tree with
  | (.ok _, tree) => (.ok (), tree)
  | (.error error, tree) => (.error error, tree)

def print (environment : List (String × String)) (program : String) (flags : List String)
    (folder classFile : String) (tree : FileTree) : Except ToolError String × FileTree :=
  match runProgram disassemblerName environment ⟨program, flags ++ [classFile], folder⟩ tree with
  | (.error error, tree) => (.error error, tree)
  | (.ok outcome, tree) =>
      let text := outcome.outText
      if Text.trim text = "" then (.error (.noOutput disassemblerName classFile), tree) else (.ok text, tree)

def disassemble (environment : List (String × String)) (program folder classFile : String) (tree : FileTree) :
    Except ToolError Artifacts × FileTree :=
  match print environment program ["-c"] folder classFile tree with
  | (.error error, tree) => (.error error, tree)
  | (.ok full, tree) =>
      match print environment program [] folder classFile tree with
      | (.error error, tree) => (.error error, tree)
      | (.ok signatures, tree) => (.ok ⟨full, signatures⟩, tree)

def disassemblerProgram (environment : List (String × String)) (config : Config) : String :=
  (environment.lookup disassemblerVariable).getD config.javap

def toolkit (environment : List (String × String)) (config : Config) : Toolkit where
  extract := extract environment config.tar
  disassemble := disassemble environment (disassemblerProgram environment config)
  extractorName := extractorName
  library := Pattern.library

end BytecodeParity.Tool
