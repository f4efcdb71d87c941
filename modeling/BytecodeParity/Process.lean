import BytecodeParity.FileTree.Walk
import BytecodeParity.Text.Utf8

set_option autoImplicit false

namespace BytecodeParity

inductive ExitStatus where
  | code (number : Nat)
  | signal (number : Nat)
deriving DecidableEq, Repr

namespace ExitStatus

def success (status : ExitStatus) : Bool :=
  status = .code 0

def signalName? : Nat → Option String
  | 1 => some "SIGHUP"
  | 2 => some "SIGINT"
  | 3 => some "SIGQUIT"
  | 6 => some "SIGABRT"
  | 9 => some "SIGKILL"
  | 10 => some "SIGUSR1"
  | 11 => some "SIGSEGV"
  | 12 => some "SIGUSR2"
  | 13 => some "SIGPIPE"
  | 14 => some "SIGALRM"
  | 15 => some "SIGTERM"
  | _ => none

def message : ExitStatus → String
  | .code number => "exit status: " ++ toString number
  | .signal number =>
      "signal: " ++ toString number ++
        match signalName? number with
        | some name => " (" ++ name ++ ")"
        | none => ""

end ExitStatus

structure Outcome where
  status : ExitStatus
  out : ByteArray
  err : ByteArray

namespace Outcome

def outText (outcome : Outcome) : String :=
  Text.decode outcome.out

def errText (outcome : Outcome) : String :=
  Text.decode outcome.err

end Outcome

structure Invocation where
  program : String
  arguments : List String
  folder : String
deriving DecidableEq, Repr

end BytecodeParity
