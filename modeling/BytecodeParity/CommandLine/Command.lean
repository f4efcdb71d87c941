import BytecodeParity.CommandLine.Arguments
import BytecodeParity.Json.Printer
import BytecodeParity.Report.Json
import BytecodeParity.Report.Text
import BytecodeParity.Tool.Program

set_option autoImplicit false

namespace BytecodeParity

structure Answer where
  code : Nat
  out : String
  complaint : Option String
  log : List LogEntry
deriving DecidableEq, Repr

namespace Answer

def succeed (out : String) : Answer := ⟨0, out, none, []⟩

def fail (complaint : String) : Answer := ⟨1, "", some complaint, []⟩

def misuse : Answer := ⟨2, "", none, []⟩

def errorLine? (answer : Answer) : Option String :=
  answer.complaint.map fun complaint =>
    "Error: " ++ String.ofList (complaint.toList.takeWhile fun c => c ≠ '\n')

end Answer

namespace Command

def version : String := "0.1.0"

def name : String := "bytecode-diff"

/-- The path of a root with its links followed; where nothing stands, its path from the working
folder. -/
def rootPath (tree : FileTree) (root : String) : String :=
  match tree.canonical root with
  | .ok path => path
  | .error _ => Path.join (Path.ofLocation tree.here) root

def settings (tree : FileTree) (root : String) (config : Option String) (overrides : Config.Overrides) :
    Except String Config :=
  match Config.choose tree root config with
  | .ok config => .ok (overrides.apply config)
  | .error _ => .error (Config.chooseContext root config)

def settingsEntries (tree : FileTree) (root : String) (config : Option String) : List LogEntry :=
  match config, Config.discover tree root with
  | none, .ok (_, some path) => [.configFound path]
  | _, _ => []

def failureMessage (report : Report) : String :=
  "Bytecode verification failed for " ++
    toString (report.classes.filter fun report => !report.isConsistent).length ++ " class(es)"

def answerOutcome (json : Bool) : Except RunError Report → Answer
  | .error error => .fail error.message
  | .ok report =>
      let out := if json then report.toJson.pretty ++ "\n" else report.render
      if report.success then .succeed out else ⟨1, out, some (failureMessage report), []⟩

def answerRun (json : Bool) (chosen : List LogEntry) (result : Except RunError Report × Progress) : Answer :=
  { answerOutcome json result.1 with log := chosen ++ result.2.log }

def verify (environment : List (String × String)) (now root : String) (config : Option String)
    (overrides : Config.Overrides) (options : RunOptions) (json : Bool) (tree : FileTree) : Answer × FileTree :=
  let root := rootPath tree root
  match settings tree root config overrides with
  | .error context => (.fail context, tree)
  | .ok chosen =>
      let result := Verification.run ⟨root, chosen, Tool.toolkit environment chosen, options⟩ now tree
      (answerRun json (settingsEntries tree root config) result, result.2.tree)

def readInputs : List String → Except String (List SingleInput)
  | [] => .ok []
  | argument :: arguments =>
      match SingleInput.ofArgument? argument with
      | none => .error argument
      | some input => (readInputs arguments).map (input :: ·)

def compare (now : String) (files : List String) (config : Option String) (overrides : Config.Overrides)
    (keepGoing json : Bool) (tree : FileTree) : Answer :=
  let root := rootPath tree "."
  match settings tree root config overrides with
  | .error context => .fail context
  | .ok chosen =>
      match readInputs files with
      | .error argument => .fail (SingleInput.usage argument)
      | .ok inputs =>
          answerRun json (settingsEntries tree root config)
            (SingleRun.run chosen.namespacePrefix keepGoing inputs now tree)

def showConfig (root : String) (config : Option String) (overrides : Config.Overrides) (json : Bool)
    (tree : FileTree) : Answer :=
  match settings tree (rootPath tree root) config overrides with
  | .error context => .fail context
  | .ok config =>
      match config.patterns with
      | .error bad => .fail bad.message
      | .ok _ => .succeed (if json then config.toJson.pretty ++ "\n" else config.toYaml)

def serve (environment : List (String × String)) (now : String) (request : Request) (tree : FileTree) :
    Answer × FileTree :=
  match request with
  | .version => (.succeed (name ++ " " ++ version ++ "\n"), tree)
  | .verify root config overrides options json => verify environment now root config overrides options json tree
  | .compare files config overrides keepGoing json =>
      (compare now files config overrides keepGoing json tree, tree)
  | .showConfig root config overrides json => (showConfig root config overrides json tree, tree)

def run (environment : List (String × String)) (now : String) (arguments : List String) (tree : FileTree) :
    Answer × FileTree :=
  match Arguments.parse? arguments with
  | some request => serve environment now request tree
  | none => (.misuse, tree)

end Command

end BytecodeParity
