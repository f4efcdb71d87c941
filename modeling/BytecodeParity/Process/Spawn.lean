import BytecodeParity.Shell.Eval
import BytecodeParity.Text.Basic

set_option autoImplicit false

namespace BytecodeParity.Process

def runCommand? (tree : FileTree) (name : String) (arguments : List String) : Option (Outcome × FileTree) :=
  match name with
  | "true" => some (⟨.code 0, .empty, .empty⟩, tree)
  | "false" => some (⟨.code 1, .empty, .empty⟩, tree)
  | "echo" => some (⟨.code 0, (" ".intercalate arguments ++ "\n").toUTF8, .empty⟩, tree)
  | name =>
      if ["printf", "cat", "mkdir", "touch", "rm", "cp", "basename", "dirname", "ls", "pwd", "test"].contains name then
        let effect := Shell.Builtin.run ⟨tree, [], name, arguments, 0, .empty, .empty, none⟩ name arguments
        some (⟨.code effect.status, effect.out, effect.err⟩, { effect.state.tree with here := tree.here })
      else none

def interpreter? (content : ByteArray) : Option String :=
  match (Text.decode content).toList with
  | '#' :: '!' :: rest => some (Text.trim (String.ofList (rest.takeWhile fun c => c ≠ '\n')))
  | _ => none

def shells : List String :=
  ["/bin/sh", "/bin/dash", "/bin/bash", "/usr/bin/sh", "/usr/bin/env sh", "/usr/bin/env bash"]

def runFile (tree : FileTree) (environment : List (String × String)) (path : String) (arguments : List String) :
    Except FileError (Outcome × FileTree) :=
  match tree.locate true path with
  | .error cause => .error cause
  | .ok (_, .file content true) =>
      match interpreter? content with
      | none => .error .noProgram
      | some interpreter =>
          if shells.contains interpreter then
            .ok (Shell.runScript tree environment path (Text.decode content) arguments)
          else .error .notFound
  | .ok _ => .error .denied

def systemFolders : List String :=
  ["/bin", "/usr/bin"]

def systemCommand? (path : String) : Option String :=
  let (above, name) := FileTree.cutLastName path
  if (systemFolders.map (Path.join · "")).contains (String.ofList above) then some name else none

def startAt (tree : FileTree) (environment : List (String × String)) (path : String) (arguments : List String) :
    Except FileError (Outcome × FileTree) :=
  match (systemCommand? path).bind fun name => runCommand? tree name arguments with
  | some done => .ok done
  | none => runFile tree environment path arguments

/-- Runs the first program of a name in the folders; one that may not be run is passed over. -/
def startIn (tree : FileTree) (environment : List (String × String)) (name : String) (arguments : List String)
    (denied : Bool) : List String → Except FileError (Outcome × FileTree)
  | [] => .error (if denied then .denied else .notFound)
  | folder :: folders =>
      match startAt tree environment (Path.join folder name) arguments with
      | .error .notFound => startIn tree environment name arguments denied folders
      | .error .notFolder => startIn tree environment name arguments denied folders
      | .error .denied => startIn tree environment name arguments true folders
      | result => result

def searchPath (environment : List (String × String)) : List String :=
  match environment.lookup "PATH" with
  | some folders => (Text.split ':' folders).map fun folder => if folder = "" then "." else folder
  | none => systemFolders

def start (tree : FileTree) (environment : List (String × String)) (program : String) (arguments : List String) :
    Except FileError (Outcome × FileTree) :=
  if program = "" then .error .notFound
  else if program.toList.contains '/' then startAt tree environment program arguments
  else startIn tree environment program arguments false (searchPath environment)

def run (tree : FileTree) (environment : List (String × String)) (invocation : Invocation) :
    Except FileError (Outcome × FileTree) :=
  match tree.locate true invocation.folder with
  | .error cause => .error cause
  | .ok (location, .folder) =>
      (start { tree with here := location } environment invocation.program invocation.arguments).map
        fun (outcome, changed) => (outcome, { changed with here := tree.here })
  | .ok _ => .error .notFolder

end BytecodeParity.Process
