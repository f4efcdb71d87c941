import BytecodeParity.Text.Basic

set_option autoImplicit false

namespace BytecodeParity.Pattern

structure Flags where
  ignoreCase : Bool
  multiLine : Bool
  dotAll : Bool
  swapGreed : Bool
  unicode : Bool
  returns : Bool
  spaced : Bool
deriving DecidableEq, Repr

namespace Flags

def initial : Flags := ⟨false, false, false, false, true, false, false⟩

def set? (flags : Flags) (letter : Char) (value : Bool) : Option Flags :=
  match letter with
  | 'i' => some { flags with ignoreCase := value }
  | 'm' => some { flags with multiLine := value }
  | 's' => some { flags with dotAll := value }
  | 'U' => some { flags with swapGreed := value }
  | 'u' => some { flags with unicode := value }
  | 'R' => some { flags with returns := value }
  | 'x' => some { flags with spaced := value }
  | _ => none

def skipSpaced (inComment : Bool) : List Char → List Char
  | [] => []
  | c :: rest =>
      if inComment then skipSpaced (c ≠ '\n') rest
      else if Text.isBlank c then skipSpaced false rest
      else if c = '#' then skipSpaced true rest
      else c :: rest

def skip (flags : Flags) (cs : List Char) : List Char :=
  if flags.spaced then skipSpaced false cs else cs

def collect (flags : Flags) (fits : Char → Bool) (inComment : Bool) : List Char → List Char × List Char
  | [] => ([], [])
  | c :: rest =>
      if inComment then collect flags fits (c ≠ '\n') rest
      else if flags.spaced && Text.isBlank c then collect flags fits false rest
      else if flags.spaced && c = '#' then collect flags fits true rest
      else if fits c then
        let (taken, left) := collect flags fits false rest
        (c :: taken, left)
      else ([], c :: rest)

structure Draft where
  flags : Flags
  seen : List Char
  negated : Bool
  dangling : Bool

namespace Draft

def push? (draft : Draft) (letter : Char) : Option Draft :=
  if letter = '-' then
    if draft.negated then none else some { draft with negated := true, dangling := true }
  else if draft.seen.contains letter then none
  else
    match draft.flags.set? letter (!draft.negated) with
    | none => none
    | some flags => some { draft with flags := flags, seen := letter :: draft.seen, dangling := false }

end Draft

def read (draft : Draft) : List Char → Option ((Draft × Char) × List Char)
  | [] => none
  | c :: rest =>
      if c = ':' || c = ')' then
        if draft.dangling then none else some ((draft, c), rest)
      else
        match draft.push? c with
        | none => none
        | some draft => read draft rest

end Flags

end BytecodeParity.Pattern
