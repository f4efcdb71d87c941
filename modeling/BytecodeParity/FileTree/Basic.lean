/-!
A tree of files. It is a list of entries, each at the names that lead to it from the top; the top
itself is a folder that is always there. One folder is the place that relative paths start from.
-/

set_option autoImplicit false

namespace BytecodeParity

/-- The names that lead from the top to an entry. They are texts, as are the paths that lead to it. -/
abbrev Location := List String

instance decidableEqContent : DecidableEq ByteArray :=
  ByteArray.instDecidableEq

inductive Entry where
  | folder
  | file (content : ByteArray) (executable : Bool)
  | link (target : String)
deriving DecidableEq

structure FileTree where
  entries : List (Location × Entry)
  here : Location
deriving DecidableEq

namespace Entry

def ofText (text : String) : Entry :=
  .file text.toUTF8 false

def isFolder : Entry → Bool
  | .folder => true
  | _ => false

def isFile : Entry → Bool
  | .file _ _ => true
  | _ => false

end Entry

namespace FileTree

def empty : FileTree := ⟨[], []⟩

def find? (tree : FileTree) (location : Location) : Option Entry :=
  if location.isEmpty then some .folder else tree.entries.lookup location

def put (tree : FileTree) (location : Location) (entry : Entry) : FileTree :=
  { tree with entries := (tree.entries.filter fun row => row.1 ≠ location) ++ [(location, entry)] }

def remove (tree : FileTree) (location : Location) : FileTree :=
  { tree with entries := tree.entries.filter fun row => !location.isPrefixOf row.1 }

def clear (tree : FileTree) (location : Location) : FileTree :=
  { tree with entries := tree.entries.filter fun row => row.1 = location || !location.isPrefixOf row.1 }

def childName? (parent : Location) (location : Location) : Option String :=
  match location.getLast? with
  | none => none
  | some name => if location.dropLast = parent then some name else none

def children (tree : FileTree) (parent : Location) : List (String × Entry) :=
  tree.entries.filterMap fun row => (childName? parent row.1).map fun name => (name, row.2)

def putFolders (tree : FileTree) (location : Location) : FileTree :=
  (List.range (location.length + 1)).foldl
    (fun tree count =>
      let above := location.take count
      if (tree.find? above).isSome then tree else tree.put above .folder)
    tree

end FileTree

end BytecodeParity
