import BytecodeParity.Disassembly
import BytecodeParity.Divergence

set_option autoImplicit false

namespace BytecodeParity

inductive BuildScope where
  | listed (version className : String)
  | single (version : String)
deriving DecidableEq, Repr

inductive Notice where
  | unprocessedLine (scope : BuildScope) (line : UnprocessedLine)
  | buildFailed (missing : MissingBody)
  | divergenceFound (divergence : Divergence)
  | noDisassembly (version className : String)
  | noArchive (version : String)
  | noClassFile (version className : String)
  | recordsDiffer (className : Option String) (versions : Nat)
deriving DecidableEq, Repr

namespace Notice

def isError : Notice → Bool
  | .buildFailed _ | .recordsDiffer _ _ => true
  | _ => false

def message : Notice → String
  | .unprocessedLine _ _ => "line references the external namespace but was not processed"
  | .buildFailed _ => "could not build bytecode record"
  | .divergenceFound _ => "divergence detected"
  | .noDisassembly _ _ => "no disassembly for class, skipping"
  | .noArchive _ => "no matching archive, nothing extracted"
  | .noClassFile _ _ => "class file missing, not disassembled"
  | .recordsDiffer _ _ => "sanity check found differing records"

def subject : Notice → String
  | .unprocessedLine _ line => line.line
  | .buildFailed missing => missing.message
  | .divergenceFound divergence => divergence.message
  | .noDisassembly version className => version ++ " " ++ className
  | .noArchive version => version
  | .noClassFile version className => version ++ " " ++ className
  | .recordsDiffer className _ => classLabel className

end Notice

inductive LogLevel where
  | debug
  | info
  | warning
  | error
deriving DecidableEq, Repr

namespace LogLevel

def label : LogLevel → String
  | .debug => "DEBUG"
  | .info => "INFO"
  | .warning => "WARN"
  | .error => "ERROR"

end LogLevel

inductive LogEntry where
  | notice (notice : Notice)
  | configFound (path : String)
  | versionsFound (versions : List String)
  | removing (path : String)
  | unpacking (archive tool : String)
  | classesFound (classes : List String)
  | disassembled (version className : String)
  | comparing
  | recordBuilt (scope : BuildScope) (methods : Nat)
  | baselineKept (className : Option String) (version : String)
  | baselineEntered (className : Option String) (version : String)
  | sameAsPrevious (className : Option String) (version previous : String)
  | checking
deriving DecidableEq, Repr

namespace LogEntry

def level : LogEntry → LogLevel
  | .notice given => if given.isError then .error else .warning
  | .removing _ | .recordBuilt _ _ | .baselineKept _ _ | .baselineEntered _ _ | .sameAsPrevious _ _ _ => .debug
  | _ => .info

def message : LogEntry → String
  | .notice given => given.message
  | .configFound _ => "loaded config"
  | .versionsFound _ => "discovered version folders"
  | .removing _ => "removing previous extraction"
  | .unpacking _ _ => "unzipping"
  | .classesFound _ => "discovered classes"
  | .disassembled _ _ => "created bytecode files"
  | .comparing => "comparing all bytecodes"
  | .recordBuilt _ _ => "built bytecode record"
  | .baselineKept _ _ => "recorded baseline"
  | .baselineEntered _ _ => "baseline recorded"
  | .sameAsPrevious _ _ _ => "identical to previous version"
  | .checking => "performing sanity check"

def subject : LogEntry → String
  | .notice given => given.subject
  | .configFound path | .removing path => path
  | .versionsFound names | .classesFound names => ", ".intercalate names
  | .unpacking archive tool => archive ++ " " ++ tool
  | .disassembled version className => version ++ " " ++ className
  | .recordBuilt _ methods => toString methods
  | .baselineKept className version => classLabel className ++ " " ++ version
  | .baselineEntered className version => className.getD "" ++ " " ++ version
  | .sameAsPrevious className version previous => className.getD "" ++ " " ++ version ++ " " ++ previous
  | .comparing | .checking => ""

def line (entry : LogEntry) : String :=
  entry.level.label ++ " " ++ entry.message ++ ": " ++ entry.subject

def notice? : LogEntry → Option Notice
  | .notice given => some given
  | _ => none

end LogEntry

def noticesOf (log : List LogEntry) : List Notice :=
  log.filterMap LogEntry.notice?

end BytecodeParity
