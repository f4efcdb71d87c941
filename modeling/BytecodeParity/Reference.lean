import BytecodeParity.Text.Basic

/-!
References in disassembly lines. A disassembler annotates a resolved reference with a trailing
comment: a marker, a keyword for the kind of the target, and the target. Only lines that mention a
given namespace prefix matter; the rest of the platform is stable.
-/

set_option autoImplicit false

namespace BytecodeParity

inductive ReferenceKind where
  | method
  | interfaceMethod
  | field
  | classType
deriving DecidableEq, Repr

namespace ReferenceKind

def keyword : ReferenceKind → String
  | .method => "Method"
  | .interfaceMethod => "InterfaceMethod"
  | .field => "Field"
  | .classType => "class"

def ofKeyword? (word : String) : Option ReferenceKind :=
  if word = method.keyword then some method
  else if word = interfaceMethod.keyword then some interfaceMethod
  else if word = field.keyword then some field
  else if word = classType.keyword then some classType
  else none

end ReferenceKind

inductive Mention where
  | unrelated
  | stable (kind : ReferenceKind)
  | symbol (kind : ReferenceKind) (target : String)
  /-- The line contains the prefix but carries no annotation of a known kind. -/
  | unprocessed (keyword : Option String)
deriving DecidableEq, Repr

structure UnprocessedLine where
  keyword : Option String
  line : String
deriving DecidableEq, Repr

namespace Mention

def defaultNamespace : String := "net/minecraft/"

def commentMarker : List Char := ['/', '/']

def cutKeyword (comment : List Char) : String × String :=
  (String.ofList (comment.takeWhile fun c => !Text.isBlank c),
    String.ofList ((comment.dropWhile fun c => !Text.isBlank c).drop 1))

def ofComment (namespacePrefix : String) (comment : List Char) : Mention :=
  let (keyword, rest) := cutKeyword (Text.dropBlanks comment)
  match ReferenceKind.ofKeyword? keyword with
  | none => .unprocessed (if keyword = "" then none else some keyword)
  | some kind =>
      let target := Text.trim rest
      if Text.contains target namespacePrefix then .symbol kind target else .stable kind

/-- Reads a line. With an empty prefix no line is related to the namespace. -/
def ofLine (namespacePrefix line : String) : Mention :=
  if namespacePrefix = "" || !Text.contains line namespacePrefix then .unrelated
  else
    match Text.cutAt commentMarker line.toList with
    | none => .unprocessed none
    | some (_, comment) => ofComment namespacePrefix comment

def symbol? : Mention → Option String
  | .symbol _ target => some target
  | _ => none

end Mention

def symbolOf? (namespacePrefix line : String) : Option String :=
  (Mention.ofLine namespacePrefix line).symbol?

def unprocessedOf? (namespacePrefix line : String) : Option UnprocessedLine :=
  match Mention.ofLine namespacePrefix line with
  | .unprocessed keyword => some ⟨keyword, Text.trim line⟩
  | _ => none

end BytecodeParity
