import BytecodeParity.Session

/-!
The comparison phase: inputs are read one after the other and taken into the session, those of a
halted class excepted, until one cannot be read.
-/

set_option autoImplicit false

namespace BytecodeParity

inductive Reading where
  | absent (version className : String)
  | built (scope : BuildScope) (build : Build)

namespace BuildScope

def className? : BuildScope → Option String
  | .listed _ className => some className
  | .single _ => none

end BuildScope

namespace Session

def buildEntries (scope : BuildScope) (build : Build) : List LogEntry :=
  build.unprocessed.map (fun line => .notice (.unprocessedLine scope line)) ++
    match scope, build.outcome with
    | .listed _ _, .ok record => [.recordBuilt scope record.methods.length]
    | _, _ => []

def take (session : Session) : Reading → Session
  | .absent version className => session.note [.notice (.noDisassembly version className)]
  | .built scope build => (session.note (buildEntries scope build)).enter scope.className? build.outcome

/-- Compares the inputs in their order. `className` tells the class of an input before it is read. -/
def compare {ε α : Type} (className : α → Option String) (read : α → Except ε Reading) :
    List α → Session → Except ε Unit × Session
  | [], session => (.ok (), session)
  | input :: inputs, session =>
      if session.isHalted (className input) then compare className read inputs session
      else
        match read input with
        | .error error => (.error error, session)
        | .ok reading => compare className read inputs (session.take reading)

end Session

end BytecodeParity
