import BytecodeParity.FileTree.Basic
import BytecodeParity.Path

/-!
Following path texts through a tree of files. Links are followed wherever the path goes on behind
them, forty at most; a separator at the end of a path asks for a folder.
-/

set_option autoImplicit false

namespace BytecodeParity

inductive FileError where
  | notFound
  | noProgram
  | denied
  | occupied
  | notFolder
  | isFolder
  | invalid
  | notEmpty
  | tooManyLinks
  | notText
deriving DecidableEq, Repr

namespace FileError

def message : FileError → String
  | .notFound => "No such file or directory (os error 2)"
  | .noProgram => "Exec format error (os error 8)"
  | .denied => "Permission denied (os error 13)"
  | .occupied => "File exists (os error 17)"
  | .notFolder => "Not a directory (os error 20)"
  | .isFolder => "Is a directory (os error 21)"
  | .invalid => "Invalid argument (os error 22)"
  | .notEmpty => "Directory not empty (os error 39)"
  | .tooManyLinks => "Too many levels of symbolic links (os error 40)"
  | .notText => "stream did not contain valid UTF-8"

end FileError

namespace Path

/-- The names to follow one after the other; a separator at the end adds the name of the same
folder. -/
def steps (path : String) : List String :=
  (Text.split '/' path).filter (· ≠ "") ++ (if endsInSeparator path then ["."] else [])

def ofLocation (location : Location) : String :=
  "/" ++ "/".intercalate location

end Path

inductive Spot where
  | taken (location : Location) (entry : Entry)
  | free (location : Location)

namespace FileTree

/-- Follows names from a folder. A link is handed, with the folder it stands in and the names that
are to follow it, to `onLink`, unless it is the last name and `followLast` is not set. -/
def walkNames (tree : FileTree) (followLast : Bool)
    (onLink : Location → List String → Except FileError Spot) : Location → List String → Except FileError Spot
  | folder, [] => .ok (.taken folder .folder)
  | folder, name :: rest =>
      if name = "." then walkNames tree followLast onLink folder rest
      else if name = ".." then walkNames tree followLast onLink folder.dropLast rest
      else
        let location := folder ++ [name]
        match tree.find? location with
        | none => if rest.isEmpty then .ok (.free location) else .error .notFound
        | some .folder => walkNames tree followLast onLink location rest
        | some (.file content executable) =>
            if rest.isEmpty then .ok (.taken location (.file content executable)) else .error .notFolder
        | some (.link target) =>
            if rest.isEmpty && !followLast then .ok (.taken location (.link target))
            else onLink (if Path.isAbsolute target then [] else folder) (Path.steps target ++ rest)

def walkLinks (tree : FileTree) (followLast : Bool) : Nat → Location → List String → Except FileError Spot
  | 0 => walkNames tree followLast fun _ _ => .error .tooManyLinks
  | links + 1 => walkNames tree followLast (walkLinks tree followLast links)

def walk (tree : FileTree) (followLast : Bool) (path : String) : Except FileError Spot :=
  if path = "" then .error .notFound
  else walkLinks tree followLast 40 (if Path.isAbsolute path then [] else tree.here) (Path.steps path)

def locate (tree : FileTree) (followLast : Bool) (path : String) : Except FileError (Location × Entry) :=
  match tree.walk followLast path with
  | .ok (.taken location entry) => .ok (location, entry)
  | .ok (.free _) => .error .notFound
  | .error cause => .error cause

end FileTree

end BytecodeParity
