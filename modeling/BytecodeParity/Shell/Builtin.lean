import BytecodeParity.Shell.Format
import BytecodeParity.Shell.State

set_option autoImplicit false

namespace BytecodeParity.Shell.Builtin

def echo (state : State) (arguments : List String) : Effect :=
  let (newline, words) :=
    match arguments with
    | "-n" :: words => (false, words)
    | words => (true, words)
  let (bytes, ended) := Format.escaped (" ".intercalate words)
  .print state (if newline && !ended then bytes ++ "\n".toUTF8 else bytes)

def printf (state : State) : List String → Effect
  | [] => .complain state "printf: usage: printf format [arg ...]" 2
  | format :: arguments => .print state (Format.format format arguments)

def compareNumbers? (operator : String) (a b : Int) : Option Bool :=
  match operator with
  | "-eq" => some (a = b)
  | "-ne" => some (a ≠ b)
  | "-lt" => some (a < b)
  | "-le" => some (a ≤ b)
  | "-gt" => some (a > b)
  | "-ge" => some (a ≥ b)
  | _ => none

def testOne? (state : State) (operator value : String) : Option Bool :=
  match operator with
  | "-n" => some (value ≠ "")
  | "-z" => some (value = "")
  | "-e" => some (state.tree.isPresent value)
  | "-r" => some (state.tree.isPresent value)
  | "-w" => some (state.tree.isPresent value)
  | "-f" => some (state.tree.isFile value)
  | "-d" => some (state.tree.isFolder value)
  | "-s" => some ((state.tree.readBytes value).toOption.any fun bytes => bytes.size ≠ 0)
  | "-x" =>
      match state.tree.locate true value with
      | .ok (_, .file _ executable) => some executable
      | .ok _ => some true
      | .error _ => some false
  | "-L" =>
      match state.tree.locate false value with
      | .ok (_, .link _) => some true
      | _ => some false
  | _ => none

def testTwo? (a operator b : String) : Option Bool :=
  match operator with
  | "=" => some (a = b)
  | "!=" => some (a ≠ b)
  | operator =>
      match a.toInt?, b.toInt? with
      | some a, some b => compareNumbers? operator a b
      | _, _ => none

def test? (state : State) : List String → Option Bool
  | [] => some false
  | [value] => some (value ≠ "")
  | ["!", value] => some (value = "")
  | [operator, value] => testOne? state operator value
  | [a, operator, b] =>
      match testTwo? a operator b with
      | some truth => some truth
      | none => if a = "!" then (testOne? state operator b).map (!·) else none
  | ["!", a, operator, b] => (testTwo? a operator b).map (!·)
  | _ => none

def test (state : State) (arguments : List String) : Effect :=
  match test? state arguments with
  | some true => .done state 0
  | some false => .done state 1
  | none => .complain state "test: unexpected operator" 2

def cutOptions (arguments : List String) : List String × List String :=
  let options := arguments.takeWhile fun argument => argument.startsWith "-" && argument ≠ "-"
  (options, arguments.drop options.length)

def forOperands (name : String) (step : FileTree → String → Except FileError FileTree) (state : State)
    (operands : List String) : Effect :=
  operands.foldl
    (fun effect operand =>
      if effect.status = 0 then .ofTree effect.state (name ++ ": " ++ operand) (step effect.state.tree operand)
      else effect)
    (.done state 0)

def makeFrom (tree : FileTree) (above : String) : List String → Except FileError FileTree
  | [] => .ok tree
  | name :: names =>
      let path := Path.join above name
      match tree.walk true path with
      | .ok (.free location) => makeFrom (tree.put location .folder) path names
      | .ok (.taken _ .folder) => makeFrom tree path names
      | .ok (.taken _ _) => .error .occupied
      | .error cause => .error cause

def makeFolders (tree : FileTree) (path : String) : Except FileError FileTree :=
  makeFrom tree (if Path.isAbsolute path then "/" else "") (Path.names path)

def makeFolder (tree : FileTree) (path : String) : Except FileError FileTree :=
  match tree.walk false path with
  | .ok (.free location) => .ok (tree.put location .folder)
  | .ok (.taken _ _) => .error .occupied
  | .error cause => .error cause

def touch (tree : FileTree) (path : String) : Except FileError FileTree :=
  match tree.walk true path with
  | .ok (.taken _ _) => .ok tree
  | _ => tree.writeBytes path .empty

def removeForced (tree : FileTree) (path : String) : Except FileError FileTree :=
  match tree.removeFile path with
  | .error .notFound => .ok tree
  | result => result

def removeAll (tree : FileTree) (path : String) : Except FileError FileTree :=
  match tree.removeFile path with
  | .error .isFolder => .ok (tree.removeFolder path).2
  | .error .notFound => .ok tree
  | result => result

def mkdir (state : State) (arguments : List String) : Effect :=
  let (options, operands) := cutOptions arguments
  forOperands "mkdir" (if options.contains "-p" then makeFolders else makeFolder) state operands

def remove (state : State) (arguments : List String) : Effect :=
  let (options, operands) := cutOptions arguments
  let flags := options.flatMap String.toList
  forOperands "rm"
    (if flags.contains 'r' || flags.contains 'R' then removeAll
    else if flags.contains 'f' then removeForced
    else FileTree.removeFile)
    state operands

def copyTarget (tree : FileTree) (source target : String) : String :=
  if tree.isFolder target then Path.join target ((Path.fileName? source).getD "") else target

def copy (state : State) (arguments : List String) : Effect :=
  match (cutOptions arguments).2 with
  | [source, target] =>
      .ofTree state ("cp: " ++ source)
        (match state.tree.readBytes source with
        | .ok bytes => state.tree.writeBytes (copyTarget state.tree source target) bytes
        | .error cause => .error cause)
  | _ => .complain state "cp: missing operand" 1

def cat (state : State) (arguments : List String) : Effect :=
  arguments.foldl
    (fun effect path =>
      match effect.state.tree.readBytes path with
      | .ok bytes => { effect with out := effect.out ++ bytes }
      | .error cause =>
          { effect with err := effect.err ++ ("cat: " ++ path ++ ": " ++ cause.message ++ "\n").toUTF8, status := 1 })
    (.done state 0)

def list (state : State) (arguments : List String) : Effect :=
  let path := ((cutOptions arguments).2.head?).getD "."
  match state.tree.readFolder path with
  | .ok entries =>
      let names := (entries.map (·.1)).filter fun name => !name.startsWith "."
      .printText state (String.join ((names.mergeSort fun a b => decide (a ≤ b)).map (· ++ "\n")))
  | .error .notFolder => .printText state (path ++ "\n")
  | .error cause => .complain state ("ls: cannot access '" ++ path ++ "': " ++ cause.message) 2

def lastName (path : String) : String :=
  let (_, name) := FileTree.cutLastName path
  if name = "" && path ≠ "" then "/" else name

def stripEnd (suffix name : String) : String :=
  if name ≠ suffix && suffix.toList.isSuffixOf name.toList then
    String.ofList (name.toList.take (name.toList.length - suffix.toList.length))
  else name

def basename (state : State) : List String → Effect
  | [path] => .printText state (lastName path ++ "\n")
  | [path, suffix] => .printText state (stripEnd suffix (lastName path) ++ "\n")
  | _ => .complain state "basename: missing operand" 1

def dirname (state : State) : List String → Effect
  | [path] =>
      let above := (FileTree.cutLastName path).1
      let bare := (above.reverse.dropWhile fun c => c = '/').reverse
      .printText state ((if !bare.isEmpty then String.ofList bare else if above.isEmpty then "." else "/") ++ "\n")
  | _ => .complain state "dirname: missing operand" 1

def changeFolder (state : State) : List String → Effect
  | path :: _ =>
      match state.tree.locate true path with
      | .ok (location, .folder) =>
          .done { state with tree := { state.tree with here := location } } 0
      | _ => .complain state ("cd: can't cd to " ++ path) 2
  | [] => .done state 0

def finish (state : State) (arguments : List String) : Effect :=
  let status := ((arguments.head?.bind String.toNat?).getD state.status) % 256
  .done { state with ended := some (.code status) } status

def signalNumber? (word : String) : Option Nat :=
  match word with
  | "KILL" => some 9
  | "TERM" => some 15
  | "INT" => some 2
  | "HUP" => some 1
  | "QUIT" => some 3
  | "ABRT" => some 6
  | word => word.toNat?

def kill (state : State) (arguments : List String) : Effect :=
  let number :=
    match arguments with
    | ["-s", name, _] => signalNumber? name
    | [option, _] => if option.startsWith "-" then signalNumber? (option.drop 1).toString else none
    | [_] => some 15
    | _ => none
  match number with
  | some 0 => .done state 0
  | some number => .done { state with ended := some (.signal number) } (128 + number)
  | none => .complain state "kill: usage error" 2

def shift (state : State) (arguments : List String) : Effect :=
  let count := (arguments.head?.bind String.toNat?).getD 1
  .done { state with arguments := state.arguments.drop count } 0

def exportAll (state : State) (arguments : List String) : Effect :=
  .done
    (arguments.foldl
      (fun state argument =>
        match Text.cutAt ['='] argument.toList with
        | some (name, value) => state.assign (String.ofList name) (String.ofList value)
        | none => state)
      state)
    0

def run (state : State) (name : String) (arguments : List String) : Effect :=
  match name with
  | "echo" => echo state arguments
  | "printf" => printf state arguments
  | "true" => .done state 0
  | ":" => .done state 0
  | "false" => .done state 1
  | "test" => test state arguments
  | "[" =>
      if arguments.getLast? = some "]" then test state arguments.dropLast
      else .complain state "[: missing ]" 2
  | "exit" => finish state arguments
  | "kill" => kill state arguments
  | "mkdir" => mkdir state arguments
  | "touch" => forOperands "touch" touch state (cutOptions arguments).2
  | "rm" => remove state arguments
  | "cp" => copy state arguments
  | "cat" => cat state arguments
  | "basename" => basename state arguments
  | "dirname" => dirname state arguments
  | "ls" => list state arguments
  | "pwd" => .printText state (state.workingFolder ++ "\n")
  | "cd" => changeFolder state arguments
  | "shift" => shift state arguments
  | "export" => exportAll state arguments
  | "set" => .done state 0
  | "sleep" => .done state 0
  | name => .complain state (state.name ++ ": 1: " ++ name ++ ": not found") 127

end BytecodeParity.Shell.Builtin
