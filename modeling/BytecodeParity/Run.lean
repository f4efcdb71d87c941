import BytecodeParity.Comparison
import BytecodeParity.Config.File
import BytecodeParity.Discovery
import BytecodeParity.Tool

/-!
Runs. A run over a root extracts the archives, disassembles the classes and compares every class in
the order of the versions; a single run compares given disassemblies of one class. The first failure
ends a run, and what it has changed until then stays changed.
-/

set_option autoImplicit false

namespace BytecodeParity

structure RunOptions where
  skipExtract : Bool
  skipDisassemble : Bool
  keepGoing : Bool
deriving DecidableEq, Repr

inductive NothingFound where
  | noVersions (root : String)
  | noClasses (folder : String)
  | noInputs
deriving DecidableEq, Repr

def NothingFound.message : NothingFound → String
  | .noVersions root => "no version folders under " ++ root
  | .noClasses folder => "no class files in " ++ folder
  | .noInputs => "no disassembly files given"

inductive RunError where
  | access (error : AccessError)
  | badPattern (bad : BadPattern)
  | tool (error : ToolError)
  | missingArtifact (path : String)
  | nothingToVerify (found : NothingFound)
  | inconsistent
deriving DecidableEq, Repr

namespace RunError

def message : RunError → String
  | .access error => error.message
  | .badPattern bad => bad.message
  | .tool error => error.message
  | .missingArtifact path => "Required artifact missing: " ++ path
  | .nothingToVerify found => "Nothing to verify: " ++ found.message
  | .inconsistent => Sanity.failureMessage

end RunError

structure Progress where
  tree : FileTree
  calls : List ToolCall
  log : List LogEntry
deriving DecidableEq

def Progress.notices (progress : Progress) : List Notice :=
  noticesOf progress.log

/-- A step of a run: it can fail, and keeps its progress also then. -/
abbrev Job := ExceptT RunError (StateM Progress)

namespace Job

def ask {α : Type} (read : FileTree → Except RunError α) : Job α := fun progress =>
  (read progress.tree, progress)

def change {α : Type} (act : FileTree → Except RunError α × FileTree) : Job α := fun progress =>
  let (result, tree) := act progress.tree
  (result, { progress with tree := tree })

def call (call : ToolCall) : Job Unit := fun progress =>
  (.ok (), { progress with calls := progress.calls ++ [call] })

def note (entries : List LogEntry) : Job Unit := fun progress =>
  (.ok (), { progress with log := progress.log ++ entries })

end Job

/-- The ways in which the system lists folders in the course of a run: when the versions are looked for,
when the archive of a version is, and when the classes are. -/
structure Listings where
  versions : Listing
  archives : String → Listing
  classes : Listing

def Listings.plain : Listings :=
  ⟨.plain, fun _ => .plain, .plain⟩

structure Verification where
  root : String
  config : Config
  tools : Toolkit
  options : RunOptions

namespace Verification

def accessing {α : Type} (result : Except AccessError α) : Except RunError α :=
  result.mapError .access

def patterns (verification : Verification) : Except BadPattern NamePatterns :=
  verification.config.patternsBy verification.tools.library

def cleanVersion (verification : Verification) (folder : String) : Job Unit := do
  let begun ← Job.ask fun tree => .ok (Discovery.removals folder verification.config.cleanDirs tree)
  Job.note (begun.map .removing)
  Job.change fun tree =>
    let (result, tree) := Discovery.clean folder verification.config.cleanDirs tree
    (accessing result, tree)

def extractVersion (verification : Verification) (listing : Listing) (pattern : Matcher) (version : String) :
    Job Unit := do
  let folder := Layout.versionDir verification.root version
  cleanVersion verification folder
  match ← Job.ask fun tree => accessing (listing.archive? tree folder pattern) with
  | none => Job.note [.notice (.noArchive version)]
  | some archive =>
      Job.note [.unpacking archive verification.tools.extractorName]
      Job.call (.extract archive folder)
      Job.change fun tree =>
        let (result, tree) := verification.tools.extract archive folder tree
        (result.mapError .tool, tree)

def extractVersions (verification : Verification) (listings : Listings) (pattern : Matcher) : List String → Job Unit
  | [] => pure ()
  | version :: versions => do
      extractVersion verification (listings.archives version) pattern version
      extractVersions verification listings pattern versions

def removeStale (path : String) (tree : FileTree) : Except RunError Unit × FileTree :=
  if tree.isPresent path then
    match tree.removeFile path with
    | .ok tree => (.ok (), tree)
    | .error cause => (.error (.access ⟨path, cause⟩), tree)
  else (.ok (), tree)

def writeArtifact (path text : String) (tree : FileTree) : Except RunError Unit × FileTree :=
  match tree.writeText path text with
  | .ok tree => (.ok (), tree)
  | .error cause => (.error (.access ⟨path, cause⟩), tree)

/-- Disassembles one class of one version anew. What an earlier run has left is removed first, also
when there is no class file. -/
def disassemblePair (verification : Verification) (version className : String) : Job Unit := do
  let folder := Layout.versionDir verification.root version
  let paths := Layout.artifactPaths verification.root version className
  Job.change (removeStale paths.disassembly)
  Job.change (removeStale paths.signatures)
  let classFile := Layout.classFile verification.config.classesDir className
  if ← Job.ask fun tree => .ok (tree.isFile (Path.join folder classFile)) then
    Job.call (.disassemble folder classFile)
    let artifacts ← Job.change fun tree =>
      let (result, tree) := verification.tools.disassemble folder classFile tree
      (result.mapError .tool, tree)
    Job.change (writeArtifact paths.disassembly artifacts.full)
    Job.change (writeArtifact paths.signatures artifacts.signatures)
    Job.note [.disassembled version className]
  else Job.note [.notice (.noClassFile version className)]

def pairs (versions classes : List String) : List (String × String) :=
  versions.flatMap fun version => classes.map fun className => (version, className)

def disassemblePairs (verification : Verification) : List (String × String) → Job Unit
  | [] => pure ()
  | (version, className) :: pairs => do
      disassemblePair verification version className
      disassemblePairs verification pairs

def readPair (verification : Verification) (tree : FileTree) (pair : String × String) :
    Except RunError Reading := do
  let (version, className) := pair
  let paths := Layout.artifactPaths verification.root version className
  match ← accessing (Discovery.readLines tree paths.disassembly) with
  | none => return .absent version className
  | some disassembly =>
      match ← accessing (Discovery.readLines tree paths.signatures) with
      | none => throw (.missingArtifact paths.signatures)
      | some listing =>
          return .built (.listed version className)
            (Disassembly.buildListed verification.config.namespacePrefix version className listing disassembly)

def conclude (now : String) (mode : RunMode) (versions : List String) (compared : Except RunError Unit)
    (session : Session) : Job Report := do
  match compared with
  | .error error =>
      Job.note session.log
      throw error
  | .ok () =>
      let (report, session) := session.finish now mode versions
      Job.note session.log
      match report with
      | some report => return report
      | none => throw .inconsistent

def compareClasses (verification : Verification) (now : String) (versions classes : List String) : Job Report := do
  Job.note [.comparing]
  let (compared, session) ← Job.ask fun tree =>
    .ok (Session.compare (fun pair => some pair.2) (verification.readPair tree) (pairs versions classes)
      (.start verification.options.keepGoing))
  conclude now .perClass versions compared session

def prepare (verification : Verification) (listings : Listings) : Job (List String × List String) := do
  let patterns ← Job.ask fun _ => verification.patterns.mapError .badPattern
  let versions ← Job.ask fun tree => accessing (listings.versions.versions tree verification.root patterns.version)
  Job.note [.versionsFound versions]
  match versions with
  | [] => throw (.nothingToVerify (.noVersions verification.root))
  | first :: _ =>
      if !verification.options.skipExtract then extractVersions verification listings patterns.archive versions
      let folder := Layout.classesDir verification.root first verification.config.classesDir
      let classes ← Job.ask fun tree => accessing (listings.classes.classes tree folder)
      Job.note [.classesFound classes]
      if classes.isEmpty then throw (.nothingToVerify (.noClasses folder))
      if !verification.options.skipDisassemble then disassemblePairs verification (pairs versions classes)
      return (versions, classes)

/-- Runs a verification on a tree whose folders are listed in the given ways: the report or the failure,
and what was done. -/
def runListed (verification : Verification) (listings : Listings) (now : String) (tree : FileTree) :
    Except RunError Report × Progress :=
  (verification.prepare listings >>= fun found => verification.compareClasses now found.1 found.2).run ⟨tree, [], []⟩

/-- Runs a verification on a tree whose folders are listed as it keeps them. -/
def run (verification : Verification) (now : String) (tree : FileTree) : Except RunError Report × Progress :=
  verification.runListed .plain now tree

end Verification

structure SingleInput where
  version : String
  path : String
deriving DecidableEq, Repr

namespace SingleRun

def readInput (namespacePrefix : String) (tree : FileTree) (input : SingleInput) : Except RunError Reading := do
  match ← Verification.accessing (Discovery.readLines tree input.path) with
  | none => throw (.missingArtifact input.path)
  | some lines => return .built (.single input.version) (Disassembly.buildSingle namespacePrefix input.version lines)

def job (namespacePrefix : String) (keepGoing : Bool) (inputs : List SingleInput) (now : String) : Job Report := do
  if inputs.isEmpty then throw (.nothingToVerify .noInputs)
  let (compared, session) ← Job.ask fun tree =>
    .ok (Session.compare (fun _ => none) (readInput namespacePrefix tree) inputs (.start keepGoing))
  Verification.conclude now .single (inputs.map (·.version)) compared session

def run (namespacePrefix : String) (keepGoing : Bool) (inputs : List SingleInput) (now : String) (tree : FileTree) :
    Except RunError Report × Progress :=
  (job namespacePrefix keepGoing inputs now).run ⟨tree, [], []⟩

end SingleRun

end BytecodeParity
