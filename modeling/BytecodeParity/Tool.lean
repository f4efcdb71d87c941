import BytecodeParity.Config
import BytecodeParity.Process

set_option autoImplicit false

namespace BytecodeParity

structure Artifacts where
  full : String
  signatures : String
deriving DecidableEq, Repr

inductive ToolError where
  | notStarted (tool : String) (cause : FileError)
  | failed (tool : String) (status : ExitStatus) (complaint : String)
  | noOutput (tool input : String)
deriving DecidableEq, Repr

namespace ToolError

def message : ToolError → String
  | .notStarted tool cause => "Failed to spawn " ++ tool ++ ": " ++ cause.message
  | .failed tool status complaint => tool ++ " exited with " ++ status.message ++ ": " ++ complaint
  | .noOutput tool input => tool ++ " produced no output for " ++ input

end ToolError

inductive ToolCall where
  | extract (archive folder : String)
  | disassemble (folder classFile : String)
deriving DecidableEq, Repr

/-- What a run takes from outside: the library that compiles its patterns, and how the tools act on a tree
of files. A tool that fails can have changed the tree. -/
structure Toolkit where
  extract : (archive folder : String) → FileTree → Except ToolError Unit × FileTree
  disassemble : (folder classFile : String) → FileTree → Except ToolError Artifacts × FileTree
  extractorName : String
  library : ExpressionLibrary

end BytecodeParity
