set_option autoImplicit false

namespace BytecodeParity.Shell

/-- A part of a word. Inside quotes no part is split into several words. -/
inductive Part where
  | literal (text : String)
  | quoted (text : String)
  | parameter (name : String) (quoted : Bool)
  | output (source : String) (quoted : Bool)
deriving DecidableEq, Repr

abbrev Word := List Part

inductive Direction where
  | write
  | append
  | read
  | duplicate
deriving DecidableEq, Repr

structure Redirection where
  descriptor : Nat
  direction : Direction
  target : Word
deriving DecidableEq, Repr

inductive Command where
  | nothing
  | simple (assignments : List (String × Word)) (words : List Word) (redirections : List Redirection)
  | sequence (first second : Command)
  | both (first second : Command)
  | either (first second : Command)
  | negated (command : Command)
  | conditional (condition yes no : Command)
  | select (subject : Word) (patterns : List Word) (body otherwise : Command)
  /-- A command that changes neither the variables nor the folder of the script. -/
  | subshell (body : Command)
  | redirected (body : Command) (redirections : List Redirection)
  | forEach (name : String) (values : List Word) (body : Command)
deriving DecidableEq, Repr

end BytecodeParity.Shell
