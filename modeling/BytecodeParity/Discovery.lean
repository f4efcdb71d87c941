import BytecodeParity.Config
import BytecodeParity.FileTree.Access
import BytecodeParity.Text.Utf8

/-!
Version folders, class names and archives found in a tree of files, the removal of what an earlier
extraction left, and reading a kept file as lines. The system lists the entries of a folder in an order
of its own, and it can list entries whose names are no texts. No path leads to these. They are found
under the text that their names read as, and names are always taken in the order of texts.
-/

set_option autoImplicit false

namespace BytecodeParity

structure ArtifactPaths where
  disassembly : String
  signatures : String
deriving DecidableEq, Repr

namespace Layout

def versionDir (root version : String) : String :=
  Path.join root version

def classesDir (root version subfolder : String) : String :=
  Path.join (versionDir root version) subfolder

def classFileName (className : String) : String :=
  className ++ ".class"

/-- The file of a class, seen from its version folder. -/
def classFile (subfolder className : String) : String :=
  Path.join subfolder (classFileName className)

def artifactPaths (root version className : String) : ArtifactPaths :=
  let folder := versionDir root version
  { disassembly := Path.join folder ("bytecode_" ++ version ++ "_" ++ className ++ ".txt")
    signatures := Path.join folder ("bytecode_" ++ version ++ "_" ++ className ++ "_methods.txt") }

end Layout

structure AccessError where
  path : String
  cause : FileError
deriving DecidableEq, Repr

def AccessError.message (error : AccessError) : String :=
  "Failed to access " ++ error.path ++ ": " ++ error.cause.message

/-- The name of an entry as the system keeps it: a text, or bytes that are none. -/
inductive EntryName where
  | text (name : String)
  | bytes (content : ByteArray) (stray : String.fromUTF8? content = none)

namespace EntryName

def reading : EntryName → String
  | .text name => name
  | .bytes content _ => Text.decode content

end EntryName

/-- A way in which the system lists the entries of a folder. -/
structure Listing where
  rows : FileTree → Location → List (EntryName × Entry)

namespace Discovery

def insertName (name : String) : List String → List String
  | [] => [name]
  | other :: names => if name ≤ other then name :: other :: names else other :: insertName name names

def sortNames (names : List String) : List String :=
  names.foldr insertName []

def classSuffix : List Char := ".class".toList

/-- Takes the suffix of class files away, as often as it stands at the end. -/
def stripSuffix : Nat → List Char → List Char
  | 0, cs => cs
  | count + 1, cs =>
      if classSuffix.isSuffixOf cs then stripSuffix count (cs.take (cs.length - classSuffix.length)) else cs

def classOfFileName (name : String) : String :=
  String.ofList (stripSuffix name.toList.length name.toList)

end Discovery

namespace Listing

open Discovery

def plain : Listing where
  rows := fun tree folder => (tree.children folder).map fun row => (.text row.1, row.2)

/-- The entries of a folder. Links among them are not followed. -/
def readFolder (listing : Listing) (tree : FileTree) (path : String) : Except FileError (List (EntryName × Entry)) :=
  match tree.locate true path with
  | .ok (location, .folder) => .ok (listing.rows tree location)
  | .ok _ => .error .notFolder
  | .error cause => .error cause

def sortedNames (listing : Listing) (tree : FileTree) (folder : String) (keep : String → Entry → Bool) :
    Except AccessError (List String) :=
  match listing.readFolder tree folder with
  | .error cause => .error ⟨folder, cause⟩
  | .ok rows => .ok (sortNames ((rows.filter fun row => keep row.1.reading row.2).map fun row => row.1.reading))

def versions (listing : Listing) (tree : FileTree) (root : String) (pattern : Matcher) :
    Except AccessError (List String) :=
  listing.sortedNames tree root fun name entry => entry.isFolder && pattern.accepts name

/-- The classes in a folder, in the order of their files' names; a folder that is not there holds
none. -/
def classes (listing : Listing) (tree : FileTree) (folder : String) : Except AccessError (List String) :=
  if tree.isFolder folder then
    (listing.sortedNames tree folder fun name entry => entry.isFile && classSuffix.isSuffixOf name.toList).map
      fun names => names.map classOfFileName
  else .ok []

def archive? (listing : Listing) (tree : FileTree) (versionDir : String) (pattern : Matcher) :
    Except AccessError (Option String) :=
  (listing.sortedNames tree versionDir fun name entry => entry.isFile && pattern.accepts name).map
    fun names => names.head?.map (Path.join versionDir)

end Listing

namespace Discovery

def sortedNames : FileTree → String → (String → Entry → Bool) → Except AccessError (List String) :=
  Listing.plain.sortedNames

def versions : FileTree → String → Matcher → Except AccessError (List String) :=
  Listing.plain.versions

def classes : FileTree → String → Except AccessError (List String) :=
  Listing.plain.classes

def archive? : FileTree → String → Matcher → Except AccessError (Option String) :=
  Listing.plain.archive?

/-- Removes the named folders from a version folder, with the paths at which a removal was begun. The
first failure ends the removal; what was removed until then stays removed. -/
def cleanTelling (versionDir : String) : List String → FileTree → (Except AccessError Unit × FileTree) × List String
  | [], tree => ((.ok (), tree), [])
  | name :: names, tree =>
      let target := Path.join versionDir name
      if tree.isFolder target then
        match tree.removeFolder target with
        | (.ok (), tree) =>
            let (outcome, begun) := cleanTelling versionDir names tree
            (outcome, target :: begun)
        | (.error cause, tree) => ((.error ⟨target, cause⟩, tree), [target])
      else cleanTelling versionDir names tree

def clean (versionDir : String) (names : List String) (tree : FileTree) : Except AccessError Unit × FileTree :=
  (cleanTelling versionDir names tree).1

def removals (versionDir : String) (names : List String) (tree : FileTree) : List String :=
  (cleanTelling versionDir names tree).2

def readLines (tree : FileTree) (path : String) : Except AccessError (Option (List String)) :=
  match tree.readText path with
  | .ok text => .ok (some (Text.lines text))
  | .error .notFound => .ok none
  | .error cause => .error ⟨path, cause⟩

end Discovery

end BytecodeParity
