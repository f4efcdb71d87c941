import BytecodeParity.Config.File
import BytecodeParity.Run

set_option autoImplicit false

namespace BytecodeParity

inductive Request where
  | version
  | verify (root : String) (config : Option String) (overrides : Config.Overrides) (options : RunOptions)
      (json : Bool)
  | compare (files : List String) (config : Option String) (overrides : Config.Overrides) (keepGoing json : Bool)
  | showConfig (root : String) (config : Option String) (overrides : Config.Overrides) (json : Bool)
deriving DecidableEq, Repr

namespace Arguments

inductive OptionKind where
  | flag
  | value
  | values
deriving DecidableEq, Repr

def isValue (argument : String) : Bool :=
  match argument.toList with
  | '-' :: _ :: _ => false
  | _ => true

def cutOption (argument : String) : String × Option String :=
  match Text.cutAt ['='] argument.toList with
  | some (name, value) => (String.ofList name, some (String.ofList value))
  | none => (argument, none)

def longForm (argument : String) : String :=
  if argument = "-v" then "--verbose" else argument

def readOptions? (kinds : List (String × OptionKind)) : List String → Option (List (String × String))
  | [] => some []
  | argument :: rest =>
      let (name, attached) := cutOption (longForm argument)
      match kinds.lookup name, attached, rest with
      | some .flag, none, rest => (readOptions? kinds rest).map ((name, "") :: ·)
      | some .flag, some _, _ => none
      | some _, some value, rest => (readOptions? kinds rest).map ((name, value) :: ·)
      | some _, none, value :: rest =>
          if isValue value then (readOptions? kinds rest).map ((name, value) :: ·) else none
      | some _, none, [] => none
      | none, _, rest => if argument = "--" && rest.isEmpty then some [] else none

def isAllowed (kinds : List (String × OptionKind)) (options : List (String × String)) : Bool :=
  kinds.all fun (name, kind) => kind = .values || (options.filter fun option => option.1 = name).length ≤ 1

def configKinds : List (String × OptionKind) :=
  [("--verbose", .flag), ("--config", .value), ("--namespace-prefix", .value), ("--classes-dir", .value),
    ("--json", .flag)]

def verifyKinds : List (String × OptionKind) :=
  configKinds ++ [("--root", .value), ("--skip-extract", .flag), ("--skip-disassemble", .flag), ("--keep-going", .flag)]

def compareKinds : List (String × OptionKind) :=
  configKinds ++ [("--file", .values), ("--keep-going", .flag)]

def showConfigKinds : List (String × OptionKind) :=
  configKinds ++ [("--root", .value)]

def overrides (options : List (String × String)) : Config.Overrides :=
  ⟨options.lookup "--namespace-prefix", options.lookup "--classes-dir"⟩

def isGiven (options : List (String × String)) (name : String) : Bool :=
  (options.lookup name).isSome

def read? (kinds : List (String × OptionKind)) (arguments : List String) : Option (List (String × String)) :=
  (readOptions? kinds arguments).filter (isAllowed kinds)

def verify? (arguments : List String) : Option Request :=
  (read? verifyKinds arguments).map fun options =>
    .verify ((options.lookup "--root").getD ".") (options.lookup "--config") (overrides options)
      ⟨isGiven options "--skip-extract", isGiven options "--skip-disassemble", isGiven options "--keep-going"⟩
      (isGiven options "--json")

def compare? (arguments : List String) : Option Request :=
  (read? compareKinds arguments).bind fun options =>
    let files := (options.filter fun option => option.1 = "--file").map (·.2)
    if files.isEmpty then none
    else some (.compare files (options.lookup "--config") (overrides options) (isGiven options "--keep-going")
      (isGiven options "--json"))

def showConfig? (arguments : List String) : Option Request :=
  (read? showConfigKinds arguments).map fun options =>
    .showConfig ((options.lookup "--root").getD ".") (options.lookup "--config") (overrides options)
      (isGiven options "--json")

def readFrom? (verbose : Bool) : List String → Option Request
  | [] => none
  | argument :: rest =>
      match argument with
      | "-V" => some .version
      | "--version" => some .version
      | "-v" => if verbose then none else readFrom? true rest
      | "--verbose" => if verbose then none else readFrom? true rest
      | "-vV" => if verbose then none else some .version
      | "verify" => verify? rest
      | "compare" => compare? rest
      | "show-config" => showConfig? rest
      | _ => none

def parse? (arguments : List String) : Option Request :=
  readFrom? false arguments

end Arguments

namespace SingleInput

def usage (argument : String) : String :=
  "Expected VERSION=PATH, got '" ++ argument ++ "'"

/-- Reads a version and a path around the first equals sign; both have to be there. -/
def ofArgument? (argument : String) : Option SingleInput :=
  match Text.cutAt ['='] argument.toList with
  | none => none
  | some (version, path) =>
      let version := Text.trim (String.ofList version)
      if version = "" || path.isEmpty then none else some ⟨version, String.ofList path⟩

end SingleInput

end BytecodeParity
