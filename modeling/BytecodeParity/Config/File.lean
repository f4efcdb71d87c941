import BytecodeParity.Config
import BytecodeParity.FileTree.Access
import BytecodeParity.Json.Parser
import BytecodeParity.Yaml.Parser
import BytecodeParity.Yaml.Printer

set_option autoImplicit false

namespace BytecodeParity

inductive ConfigError where
  | unreadable (path : String) (cause : FileError)
  | malformed (path : String)
  | unsupportedFormat (extension : String)
  | badPattern (bad : BadPattern)
deriving DecidableEq, Repr

namespace ConfigError

def message : ConfigError → String
  | .unreadable path cause => "Failed to read config " ++ path ++ ": " ++ cause.message
  | .malformed path => "Failed to parse config " ++ path
  | .unsupportedFormat extension =>
      "Unsupported config format '" ++ extension ++ "' (expected json, yaml or yml)"
  | .badPattern bad => bad.message

end ConfigError

namespace Config

def toJson (config : Config) : Json :=
  .object [("namespace_prefix", .text config.namespacePrefix), ("classes_dir", .text config.classesDir),
    ("version_pattern", .text config.versionPattern), ("archive_pattern", .text config.archivePattern),
    ("clean_dirs", .ofTexts config.cleanDirs), ("javap", .text config.javap), ("tar", .text config.tar)]

def ofJson? : Json → Option Config
  | .object fields => ofFields? Json.text? Json.texts? fields
  | .list items =>
      if items.length ≤ fieldNames.length then ofFields? Json.text? Json.texts? (fieldNames.zip items) else none
  | _ => none

def ofYaml? : Yaml → Option Config
  | .mapping entries => do
      let fields ← entries.mapM fun (key, value) => key.text?.map fun name => (name, value)
      ofFields? Yaml.text? Yaml.texts? fields
  | .scalar text plain => if plain && text = "" then some initial else none
  | .list _ => none

def yamlLine (name text : String) : String :=
  name ++ ": " ++ Yaml.writeText text ++ "\n"

def yamlList (name : String) (texts : List String) : String :=
  if texts.isEmpty then name ++ ": []\n"
  else name ++ ":\n" ++ String.join (texts.map fun text => "- " ++ Yaml.writeText text ++ "\n")

def toYaml (config : Config) : String :=
  yamlLine "namespace_prefix" config.namespacePrefix ++ yamlLine "classes_dir" config.classesDir ++
    yamlLine "version_pattern" config.versionPattern ++ yamlLine "archive_pattern" config.archivePattern ++
    yamlList "clean_dirs" config.cleanDirs ++ yamlLine "javap" config.javap ++ yamlLine "tar" config.tar

def fileNames : List String :=
  ["bytecode-diff.json", "bytecode-diff.yaml", "bytecode-diff.yml"]

def ofText (path text : String) : Except ConfigError Config :=
  let decoded (config : Option Config) : Except ConfigError Config :=
    match config with
    | some config => .ok config
    | none => .error (.malformed path)
  match (Path.extension? path).getD "" with
  | "json" => decoded ((Json.parse? text).bind ofJson?)
  | "yaml" => decoded ((Yaml.parse? text).bind ofYaml?)
  | "yml" => decoded ((Yaml.parse? text).bind ofYaml?)
  | extension => .error (.unsupportedFormat extension)

/-- Reads a file of settings. A file that cannot be read counts before its format does. -/
def load (tree : FileTree) (path : String) : Except ConfigError Config :=
  match tree.readText path with
  | .ok text => ofText path text
  | .error cause => .error (.unreadable path cause)

def filePath? (tree : FileTree) (root : String) : Option String :=
  (fileNames.map (Path.join root)).find? tree.isFile

def discover (tree : FileTree) (root : String) : Except ConfigError (Config × Option String) :=
  match filePath? tree root with
  | some path => (load tree path).map fun config => (config, some path)
  | none => .ok (initial, none)

def choose (tree : FileTree) (root : String) : Option String → Except ConfigError Config
  | some path => load tree path
  | none => (discover tree root).map (·.1)

def chooseContext (root : String) : Option String → String
  | some path => "Failed to load config " ++ path
  | none => "Failed to load config from " ++ root

structure Overrides where
  namespacePrefix : Option String
  classesDir : Option String
deriving DecidableEq, Repr

def Overrides.apply (overrides : Overrides) (config : Config) : Config :=
  { config with
    namespacePrefix := overrides.namespacePrefix.getD config.namespacePrefix
    classesDir := overrides.classesDir.getD config.classesDir }

end Config

end BytecodeParity
