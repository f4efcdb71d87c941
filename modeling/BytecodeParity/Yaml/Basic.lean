set_option autoImplicit false

namespace BytecodeParity

inductive Yaml where
  | scalar (text : String) (plain : Bool)
  | list (items : List Yaml)
  | mapping (entries : List (Yaml × Yaml))

namespace Yaml

def nothing : Yaml := .scalar "" true

def text? : Yaml → Option String
  | .scalar text _ => some text
  | _ => none

def texts? : Yaml → Option (List String)
  | .list items => items.mapM text?
  | .scalar text plain => if plain && text = "" then some [] else none
  | .mapping _ => none

inductive Setting where
  | flow
  | value
  | entry
deriving DecidableEq, Repr

structure Gap where
  newLine : Bool
  width : Nat
deriving DecidableEq, Repr

namespace Gap

def start : Gap := ⟨false, 0⟩

def allowsTab (setting : Setting) (gap : Gap) : Bool :=
  match setting with
  | .flow => true
  | .value => !gap.newLine
  | .entry => false

def skip (setting : Setting) (inComment : Bool) (gap : Gap) : List Char → Option (Gap × List Char)
  | [] => some (gap, [])
  | c :: rest =>
      if c = '\n' then skip setting false ⟨true, 0⟩ rest
      else if inComment then skip setting true gap rest
      else if c = ' ' || (c = '\t' && gap.allowsTab setting) then
        skip setting false ⟨gap.newLine, gap.width + 1⟩ rest
      else if c = '\t' then none
      else if c = '#' then skip setting true gap rest
      else some (gap, c :: rest)

end Gap

def isBlank (c : Char) : Bool :=
  c = ' ' || c = '\t'

def endsToken : List Char → Bool
  | [] => true
  | c :: _ => isBlank c || c = '\n'

def isDocumentMark (cs : List Char) : Bool :=
  (['-', '-', '-'].isPrefixOf cs || ['.', '.', '.'].isPrefixOf cs) && endsToken (cs.drop 3)

def Gap.endsDocument (gap : Gap) (cs : List Char) : Bool :=
  cs.isEmpty || (gap.newLine && gap.width = 0 && isDocumentMark cs)

end Yaml

end BytecodeParity
