import BytecodeParity.FileTree.Access
import BytecodeParity.Process

set_option autoImplicit false

namespace BytecodeParity.Shell

structure State where
  tree : FileTree
  bindings : List (String × String)
  name : String
  arguments : List String
  status : Nat
  out : ByteArray
  err : ByteArray
  ended : Option ExitStatus

namespace State

def workingFolder (state : State) : String :=
  Path.ofLocation state.tree.here

def assign (state : State) (name value : String) : State :=
  { state with bindings := (name, value) :: state.bindings }

def parameter (state : State) (name : String) : String :=
  match name with
  | "#" => toString state.arguments.length
  | "?" => toString state.status
  | "$" => "4242"
  | "0" => state.name
  | "*" => " ".intercalate state.arguments
  | "@" => " ".intercalate state.arguments
  | "PWD" => (state.bindings.lookup name).getD state.workingFolder
  | name =>
      match name.toNat? with
      | some index => (state.arguments[index - 1]?).getD ""
      | none => (state.bindings.lookup name).getD ""

end State

structure Effect where
  state : State
  out : ByteArray
  err : ByteArray
  status : Nat

namespace Effect

def done (state : State) (status : Nat) : Effect :=
  ⟨state, .empty, .empty, status⟩

def print (state : State) (out : ByteArray) : Effect :=
  ⟨state, out, .empty, 0⟩

def printText (state : State) (text : String) : Effect :=
  print state text.toUTF8

def complain (state : State) (text : String) (status : Nat) : Effect :=
  ⟨state, .empty, (text ++ "\n").toUTF8, status⟩

def ofTree (state : State) (subject : String) : Except FileError FileTree → Effect
  | .ok tree => done { state with tree := tree } 0
  | .error cause => complain state (subject ++ ": " ++ cause.message) 1

end Effect

end BytecodeParity.Shell
