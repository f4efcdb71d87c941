import BytecodeParity.FileTree.Access
import BytecodeParity.Pattern.Parser
import BytecodeParity.Tool

/-!
Tools that act by a plan: for each version the files that an extraction makes, for each version and
class the texts of its disassembly, or a failure. What is not planned makes nothing and prints
nothing.
-/

set_option autoImplicit false

namespace BytecodeParity

inductive PlannedFailure where
  | notStarted
  | failed (code : Nat) (complaint : String)
  | noOutput
deriving DecidableEq, Repr

structure ToolPlan where
  extractions : List (String × Except PlannedFailure (List String))
  disassemblies : List (String × Except PlannedFailure Artifacts)

namespace PlannedFailure

def toError (tool input : String) : PlannedFailure → ToolError
  | .notStarted => .notStarted tool .notFound
  | .failed code complaint => .failed tool (.code code) complaint
  | .noOutput => .noOutput tool input

end PlannedFailure

namespace ToolPlan

def fileContent : ByteArray := ⟨#[0xca, 0xfe, 0xba, 0xbe]⟩

def makeFile (folder : Location) (tree : FileTree) (path : String) : FileTree :=
  let location := folder ++ Path.names path
  (tree.putFolders location.dropLast).put location (.file fileContent false)

def makeFiles (folder : String) (paths : List String) (tree : FileTree) : FileTree :=
  match tree.locate true folder with
  | .ok (location, _) => paths.foldl (makeFile location) tree
  | .error _ => tree

def versionOf (folder : String) : String :=
  (Path.fileName? folder).getD ""

def classOf (classFile : String) : String :=
  let name := ((Path.fileName? classFile).getD "").toList
  match Path.extensionChars? name with
  | some extension => String.ofList (name.take (name.length - extension.length - 1))
  | none => String.ofList name

def extract (plan : ToolPlan) (archive folder : String) (tree : FileTree) : Except ToolError Unit × FileTree :=
  match plan.extractions.lookup (versionOf folder) with
  | none => (.ok (), tree)
  | some (.ok paths) => (.ok (), makeFiles folder paths tree)
  | some (.error failure) => (.error (failure.toError "tar" archive), tree)

def disassemble (plan : ToolPlan) (folder classFile : String) (tree : FileTree) :
    Except ToolError Artifacts × FileTree :=
  match plan.disassemblies.lookup (versionOf folder ++ "/" ++ classOf classFile) with
  | none => (.ok ⟨"", ""⟩, tree)
  | some (.ok artifacts) => (.ok artifacts, tree)
  | some (.error failure) => (.error (failure.toError "javap" classFile), tree)

def toolkit (plan : ToolPlan) : Toolkit where
  extract := plan.extract
  disassemble := plan.disassemble
  extractorName := "tar"
  library := Pattern.library

end ToolPlan

end BytecodeParity
