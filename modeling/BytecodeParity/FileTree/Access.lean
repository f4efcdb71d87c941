import BytecodeParity.FileTree.Walk

set_option autoImplicit false

namespace BytecodeParity.FileTree

def isFolder (tree : FileTree) (path : String) : Bool :=
  match tree.locate true path with
  | .ok (_, entry) => entry.isFolder
  | .error _ => false

def isFile (tree : FileTree) (path : String) : Bool :=
  match tree.locate true path with
  | .ok (_, entry) => entry.isFile
  | .error _ => false

def isPresent (tree : FileTree) (path : String) : Bool :=
  match tree.locate true path with
  | .ok _ => true
  | .error _ => false

def readFolder (tree : FileTree) (path : String) : Except FileError (List (String × Entry)) :=
  match tree.locate true path with
  | .ok (location, .folder) => .ok (tree.children location)
  | .ok _ => .error .notFolder
  | .error cause => .error cause

def readBytes (tree : FileTree) (path : String) : Except FileError ByteArray :=
  match tree.locate true path with
  | .ok (_, .file content _) => .ok content
  | .ok _ => .error .isFolder
  | .error cause => .error cause

def readText (tree : FileTree) (path : String) : Except FileError String :=
  match tree.readBytes path with
  | .ok content =>
      match String.fromUTF8? content with
      | some text => .ok text
      | none => .error .notText
  | .error cause => .error cause

def writeBytes (tree : FileTree) (path : String) (content : ByteArray) : Except FileError FileTree :=
  match tree.walk true path with
  | .ok (.free location) => .ok (tree.put location (.file content false))
  | .ok (.taken location (.file _ executable)) => .ok (tree.put location (.file content executable))
  | .ok (.taken _ _) => .error .isFolder
  | .error cause => .error cause

def writeText (tree : FileTree) (path text : String) : Except FileError FileTree :=
  tree.writeBytes path text.toUTF8

def removeFile (tree : FileTree) (path : String) : Except FileError FileTree :=
  match tree.locate false path with
  | .ok (_, .folder) => .error .isFolder
  | .ok (location, _) => .ok (tree.remove location)
  | .error cause => .error cause

def cutLastName (path : String) : List Char × String :=
  let bare := path.toList.reverse.dropWhile fun c => c = '/'
  ((bare.dropWhile fun c => c ≠ '/').reverse, String.ofList (bare.takeWhile fun c => c ≠ '/').reverse)

def removeEmptied (tree : FileTree) (path : String) : Except FileError FileTree :=
  match tree.locate false path with
  | .error cause => .error cause
  | .ok (location, _) =>
      let (above, name) := cutLastName path
      if name = "." then .error .invalid
      else if name = ".." then .error .notEmpty
      else
        match tree.locate false (String.ofList above ++ name) with
        | .ok (_, .folder) => .ok (tree.remove location)
        | .ok _ => .error .notFolder
        | .error cause => .error cause

/-- Removes a folder with all it holds; a link to a folder is only unlinked. The folder is emptied
before it is removed itself, so the tree can have changed when that fails. A folder that has
vanished with its own content counts as removed. -/
def removeFolder (tree : FileTree) (path : String) : Except FileError Unit × FileTree :=
  match tree.locate false path with
  | .error cause => (.error cause, tree)
  | .ok (location, .link _) => (.ok (), tree.remove location)
  | .ok (_, .file _ _) => (.error .notFolder, tree)
  | .ok (location, .folder) =>
      let emptied := tree.clear location
      match emptied.removeEmptied path with
      | .ok removed => (.ok (), removed)
      | .error .notFound => (.ok (), emptied)
      | .error cause => (.error cause, emptied)

def canonical (tree : FileTree) (path : String) : Except FileError String :=
  (tree.locate true path).map fun (location, _) => Path.ofLocation location

end BytecodeParity.FileTree
