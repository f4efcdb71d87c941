import BytecodeParity.Path
import BytecodeParity.Reference

/-!
Settings. Every setting has a default; names and patterns are kept as they were given, and the
patterns are only compiled when they are needed. A pattern has to fit a whole name. For that its text is
put between two marks that stand for the start and the end, and only then compiled.
-/

set_option autoImplicit false

namespace BytecodeParity

/-- A compiled expression: whether it matches somewhere in a name. -/
structure Matcher where
  accepts : String → Bool

structure ExpressionLibrary where
  compile : String → Except String Matcher

structure Config where
  namespacePrefix : String
  classesDir : String
  versionPattern : String
  archivePattern : String
  cleanDirs : List String
  javap : String
  tar : String
deriving DecidableEq, Repr

structure NamePatterns where
  version : Matcher
  archive : Matcher

structure BadPattern where
  field : String
  source : String
  fault : String
deriving DecidableEq, Repr

def BadPattern.message (bad : BadPattern) : String :=
  "Invalid " ++ bad.field ++ " \x60" ++ bad.source ++ "\x60: " ++ bad.fault

namespace Config

def initial : Config where
  namespacePrefix := Mention.defaultNamespace
  classesDir := "dev/jorel/commandapi/nms"
  versionPattern := "(\\d+)\\.(\\d+)\\.(\\d+)"
  archivePattern :=
    "CommandAPI-(\\d+)\\.(\\d+)\\.(\\d+)(-SNAPSHOT)?_(\\d\x7b1,2\x7d)_(\\w\x7b3\x7d)_(\\d\x7b4\x7d)_" ++
      "\\((\\d\x7b2\x7d-\\d\x7b2\x7d-\\d\x7b2\x7d(am|pm|AM|PM))\\)\\.jar"
  cleanDirs := ["dev", "META-INF"]
  javap := "javap"
  tar := "tar"

def fieldNames : List String :=
  ["namespace_prefix", "classes_dir", "version_pattern", "archive_pattern", "clean_dirs", "javap", "tar"]

/-- Changes one setting, whose value is given as the text and as the list of texts that it can be
read as; `none` when no such setting exists or the value is of the wrong kind. -/
def set? (config : Config) (name : String) (text : Option String) (texts : Option (List String)) :
    Option Config :=
  match name with
  | "namespace_prefix" => text.map fun value => { config with namespacePrefix := value }
  | "classes_dir" => text.map fun value => { config with classesDir := value }
  | "version_pattern" => text.map fun value => { config with versionPattern := value }
  | "archive_pattern" => text.map fun value => { config with archivePattern := value }
  | "clean_dirs" => texts.map fun value => { config with cleanDirs := value }
  | "javap" => text.map fun value => { config with javap := value }
  | "tar" => text.map fun value => { config with tar := value }
  | _ => none

def hasRepeats : List String → Bool
  | [] => false
  | name :: names => names.contains name || hasRepeats names

def ofFields? {α : Type} (text? : α → Option String) (texts? : α → Option (List String))
    (fields : List (String × α)) : Option Config :=
  if hasRepeats (fields.map (·.1)) then none
  else fields.foldlM (fun config field => config.set? field.1 (text? field.2) (texts? field.2)) initial

def anchored (source : String) : String :=
  "^(?:" ++ source ++ ")$"

def compilePattern (library : ExpressionLibrary) (field source : String) : Except BadPattern Matcher :=
  match library.compile (anchored source) with
  | .ok matcher => .ok matcher
  | .error fault => .error ⟨field, source, fault⟩

def patternsBy (library : ExpressionLibrary) (config : Config) : Except BadPattern NamePatterns :=
  match compilePattern library "version_pattern" config.versionPattern with
  | .error bad => .error bad
  | .ok version =>
      match compilePattern library "archive_pattern" config.archivePattern with
      | .error bad => .error bad
      | .ok archive => .ok ⟨version, archive⟩

end Config

end BytecodeParity
