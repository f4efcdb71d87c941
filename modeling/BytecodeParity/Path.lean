import BytecodeParity.Text.Basic

/-!
Path texts. A path is kept as the text it was given as: joining adds a separator where one is
missing and normalizes nothing.
-/

set_option autoImplicit false

namespace BytecodeParity.Path

def isAbsolute (path : String) : Bool :=
  ['/'].isPrefixOf path.toList

def endsInSeparator (path : String) : Bool :=
  path.toList.getLast? = some '/'

/-- The path of `part` seen from `base`. An absolute part stands for itself, and an empty part adds
a separator at the end. -/
def join (base part : String) : String :=
  if isAbsolute part || base.isEmpty then part
  else if endsInSeparator base then base ++ part
  else base ++ "/" ++ part

def names (path : String) : List String :=
  (Text.split '/' path).filter fun name => name ≠ "" && name ≠ "."

/-- The last name of the path, unless it leads upwards. -/
def fileName? (path : String) : Option String :=
  match (names path).getLast? with
  | none => none
  | some name => if name = ".." then none else some name

def extensionChars? (name : List Char) : Option (List Char) :=
  match Text.cutAt ['.'] name.reverse with
  | none => none
  | some (after, before) => if before.isEmpty then none else some after.reverse

def extension? (path : String) : Option String :=
  match fileName? path with
  | none => none
  | some name => (extensionChars? name.toList).map String.ofList

end BytecodeParity.Path
