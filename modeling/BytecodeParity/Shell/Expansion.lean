import BytecodeParity.Shell.State
import BytecodeParity.Shell.Syntax
import BytecodeParity.Text.Basic

set_option autoImplicit false

namespace BytecodeParity.Shell

namespace Glob

def fits : List Char → List Char → Bool
  | [], text => text.isEmpty
  | '*' :: pattern, [] => fits pattern []
  | '*' :: pattern, c :: text => fits pattern (c :: text) || fits ('*' :: pattern) text
  | '?' :: pattern, _ :: text => fits pattern text
  | p :: pattern, c :: text => p = c && fits pattern text
  | _ :: _, [] => false
termination_by pattern text => pattern.length + text.length

def dropStart (longest : Bool) (pattern text : List Char) : List Char :=
  let counts := List.range (text.length + 1)
  match (if longest then counts.reverse else counts).find? fun count => fits pattern (text.take count) with
  | some count => text.drop count
  | none => text

def dropEnd (longest : Bool) (pattern text : List Char) : List Char :=
  let counts := List.range (text.length + 1)
  match (if longest then counts else counts.reverse).find? fun count => fits pattern (text.drop count) with
  | some count => text.take count
  | none => text

end Glob

structure Fields where
  finished : List String
  current : Option String

namespace Fields

def empty : Fields := ⟨[], none⟩

def append (fields : Fields) (text : String) : Fields :=
  { fields with current := some (fields.current.getD "" ++ text) }

def close (fields : Fields) : Fields :=
  match fields.current with
  | some word => ⟨fields.finished ++ [word], none⟩
  | none => fields

def isSeparator (c : Char) : Bool :=
  c = ' ' || c = '\t' || c = '\n'

def appendSplit (fields : Fields) (text : String) : Fields :=
  text.toList.foldl
    (fun fields c => if isSeparator c then fields.close else fields.append (String.ofList [c])) fields

def appendEach (fields : Fields) : List String → Fields
  | [] => fields
  | [text] => fields.append text
  | text :: texts => appendEach (fields.append text).close texts

def words (fields : Fields) : List String :=
  fields.close.finished

end Fields

/-- The value of a parameter as it is written behind the dollar sign: its name, and how the value is
trimmed or what stands for it when it is empty. -/
def parameterText (state : State) (text : String) : String :=
  let cs := text.toList
  let named := cs.takeWhile fun c => c.isAlphanum || c = '_'
  let name := if named.isEmpty then cs.take 1 else named
  let value := state.parameter (String.ofList name)
  match name, cs.drop name.length with
  | ['#'], c :: rest => toString (state.parameter (String.ofList (c :: rest))).length
  | _, [] => value
  | _, ':' :: '-' :: other => if value = "" then String.ofList other else value
  | _, '-' :: other => if value = "" then String.ofList other else value
  | _, '#' :: '#' :: pattern => String.ofList (Glob.dropStart true pattern value.toList)
  | _, '#' :: pattern => String.ofList (Glob.dropStart false pattern value.toList)
  | _, '%' :: '%' :: pattern => String.ofList (Glob.dropEnd true pattern value.toList)
  | _, '%' :: pattern => String.ofList (Glob.dropEnd false pattern value.toList)
  | _, _ => value

def expandPart (runText : String → State → String × State) (state : State) (fields : Fields) :
    Part → Fields × State
  | .literal text => (fields.append text, state)
  | .quoted text => (fields.append text, state)
  | .parameter name quoted =>
      if name = "@" then
        if quoted then (fields.appendEach state.arguments, state)
        else (state.arguments.foldl (fun fields text => (fields.appendSplit text).close) fields, state)
      else if quoted then (fields.append (parameterText state name), state)
      else (fields.appendSplit (parameterText state name), state)
  | .output source quoted =>
      let (text, state) := runText source state
      if quoted then (fields.append text, state) else (fields.appendSplit text, state)

/-- Whether a word is `"$@"` alone, which stands for no word when there are no arguments. -/
def isAllArguments : Word → Bool
  | [.quoted "", .parameter "@" true] => true
  | [.parameter "@" true] => true
  | _ => false

def expandWord (runText : String → State → String × State) (state : State) (word : Word) : List String × State :=
  let parts := if isAllArguments word then [Part.parameter "@" true] else word
  let (fields, state) := parts.foldl
    (fun (done : Fields × State) part => expandPart runText done.2 done.1 part) (.empty, state)
  (fields.words, state)

def expandWords (runText : String → State → String × State) (state : State) (words : List Word) :
    List String × State :=
  words.foldl
    (fun (done : List String × State) word =>
      let (more, state) := expandWord runText done.2 word
      (done.1 ++ more, state))
    ([], state)

def expandText (runText : String → State → String × State) (state : State) (word : Word) : String × State :=
  let (words, state) := expandWord runText state word
  (" ".intercalate words, state)

end BytecodeParity.Shell
