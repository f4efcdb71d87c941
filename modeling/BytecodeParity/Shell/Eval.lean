import BytecodeParity.Shell.Builtin
import BytecodeParity.Shell.Expansion
import BytecodeParity.Shell.Parser

set_option autoImplicit false

namespace BytecodeParity.Shell

inductive Sink where
  | out
  | err
  | file (path : String)
  | nowhere
deriving DecidableEq, Repr

structure Sinks where
  out : Sink
  err : Sink
deriving DecidableEq, Repr

namespace Sinks

def initial : Sinks := ⟨.out, .err⟩

def get (sinks : Sinks) (descriptor : Nat) : Sink :=
  if descriptor = 1 then sinks.out else if descriptor = 2 then sinks.err else .nowhere

def set (sinks : Sinks) (descriptor : Nat) (sink : Sink) : Sinks :=
  if descriptor = 1 then { sinks with out := sink }
  else if descriptor = 2 then { sinks with err := sink }
  else sinks

end Sinks

def openTarget (tree : FileTree) (direction : Direction) (path : String) : Except FileError (FileTree × Sink) :=
  if path = "/dev/null" then .ok (tree, .nowhere)
  else
    match direction with
    | .write => (tree.writeBytes path .empty).map fun tree => (tree, .file path)
    | .append =>
        match tree.readBytes path with
        | .ok _ => .ok (tree, .file path)
        | .error .notFound => (tree.writeBytes path .empty).map fun tree => (tree, .file path)
        | .error cause => .error cause
    | _ => (tree.readBytes path).map fun _ => (tree, .nowhere)

/-- Applies redirections from left to right; the path of one that fails is given instead. -/
def redirect (runText : String → State → String × State) :
    List Redirection → Sinks → State → Except String Sinks × State
  | [], sinks, state => (.ok sinks, state)
  | redirection :: rest, sinks, state =>
      let (target, state) := expandText runText state redirection.target
      match redirection.direction with
      | .duplicate =>
          match target.toNat? with
          | some other => redirect runText rest (sinks.set redirection.descriptor (sinks.get other)) state
          | none => (.error target, state)
      | direction =>
          match openTarget state.tree direction target with
          | .ok (tree, sink) =>
              redirect runText rest (sinks.set redirection.descriptor sink) { state with tree := tree }
          | .error _ => (.error target, state)

def send (state : State) (sink : Sink) (bytes : ByteArray) : State :=
  match sink with
  | .out => { state with out := state.out ++ bytes }
  | .err => { state with err := state.err ++ bytes }
  | .nowhere => state
  | .file path =>
      let before := ((state.tree.readBytes path).toOption).getD .empty
      match state.tree.writeBytes path (before ++ bytes) with
      | .ok tree => { state with tree := tree }
      | .error _ => state

def assignAll (runText : String → State → String × State) (state : State) (assignments : List (String × Word)) :
    State :=
  assignments.foldl
    (fun state assignment =>
      let (value, state) := expandText runText state assignment.2
      state.assign assignment.1 value)
    state

def refuseTarget (state : State) (path : String) : State :=
  { state with
    err := state.err ++ (state.name ++ ": 1: cannot create " ++ path ++ ": Directory nonexistent\n").toUTF8
    status := 2 }

def evalSimple (runText : String → State → String × State) (state : State)
    (assignments : List (String × Word)) (words : List Word) (redirections : List Redirection) : State :=
  let (words, state) := expandWords runText { state with status := if words.isEmpty then 0 else state.status } words
  let state := assignAll runText state assignments
  match redirect runText redirections .initial state with
  | (.error path, state) => refuseTarget state path
  | (.ok sinks, state) =>
      match words with
      | [] => state
      | name :: arguments =>
          let effect := Builtin.run state name arguments
          { send (send effect.state sinks.out effect.out) sinks.err effect.err with status := effect.status }

def fitsAny (runText : String → State → String × State) (subject : String) :
    List Word → State → Bool × State
  | [], state => (false, state)
  | pattern :: patterns, state =>
      let (text, state) := expandText runText state pattern
      if Glob.fits text.toList subject.toList then (true, state) else fitsAny runText subject patterns state

def eval (runText : String → State → String × State) : Command → State → State
  | .nothing, state => { state with status := 0 }
  | .simple assignments words redirections, state => evalSimple runText state assignments words redirections
  | .sequence first second, state =>
      let state := eval runText first state
      if state.ended.isSome then state else eval runText second state
  | .both first second, state =>
      let state := eval runText first state
      if state.ended.isSome || state.status ≠ 0 then state else eval runText second state
  | .either first second, state =>
      let state := eval runText first state
      if state.ended.isSome || state.status = 0 then state else eval runText second state
  | .negated command, state =>
      let state := eval runText command state
      if state.ended.isSome then state else { state with status := if state.status = 0 then 1 else 0 }
  | .conditional condition yes no, state =>
      let state := eval runText condition state
      if state.ended.isSome then state
      else if state.status = 0 then eval runText yes state
      else eval runText no state
  | .select subject patterns body otherwise, state =>
      let (text, state) := expandText runText state subject
      let (found, state) := fitsAny runText text patterns state
      if found then eval runText body state else eval runText otherwise state
  | .subshell body, state =>
      let inner := eval runText body state
      { state with
        tree := { inner.tree with here := state.tree.here }
        out := inner.out
        err := inner.err
        status := match inner.ended with
          | some (.code code) => code
          | _ => inner.status }
  | .redirected body redirections, state =>
      match redirect runText redirections .initial state with
      | (.error path, state) => refuseTarget state path
      | (.ok sinks, state) =>
          let inner := eval runText body { state with out := .empty, err := .empty }
          send (send { inner with out := state.out, err := state.err } sinks.out inner.out) sinks.err inner.err
  | .forEach name values body, state =>
      let (values, state) := expandWords runText state values
      values.foldl
        (fun state value => if state.ended.isSome then state else eval runText body (state.assign name value))
        { state with status := 0 }

def dropEndNewlines (text : String) : String :=
  String.ofList (text.toList.reverse.dropWhile fun c => c = '\n').reverse

def runSource : Nat → String → State → State
  | 0, _, state => { state with status := 2 }
  | depth + 1, source, state =>
      match parse? source with
      | none =>
          { state with
            err := state.err ++ (state.name ++ ": 1: Syntax error\n").toUTF8
            ended := some (.code 2)
            status := 2 }
      | some command =>
          eval
            (fun source state =>
              let inner := runSource depth source { state with out := .empty }
              let text := dropEndNewlines (Text.decode inner.out)
              (text, { state with
                tree := { inner.tree with here := state.tree.here }
                err := inner.err
                status := inner.status }))
            command state

/-- Runs a script in the tree's folder. Scripts inside it cannot be nested deeper than its text is
long. -/
def runScript (tree : FileTree) (environment : List (String × String)) (name source : String)
    (arguments : List String) : Outcome × FileTree :=
  let state := runSource (source.toList.length + 1) source
    ⟨tree, environment, name, arguments, 0, .empty, .empty, none⟩
  (⟨state.ended.getD (.code state.status), state.out, state.err⟩, { state.tree with here := tree.here })

end BytecodeParity.Shell
