import BytecodeParity.Json.Basic

set_option autoImplicit false

namespace BytecodeParity.Json.Parser

def isSpace (c : Char) : Bool :=
  c = ' ' || c = '\n' || c = '\r' || c = '\t'

def skipSpace (cs : List Char) : List Char :=
  cs.dropWhile isSpace

def isDigit (c : Char) : Bool :=
  '0' ≤ c && c ≤ '9'

def hexDigit? (c : Char) : Option Nat :=
  if '0' ≤ c && c ≤ '9' then some (c.toNat - '0'.toNat)
  else if 'a' ≤ c && c ≤ 'f' then some (c.toNat - 'a'.toNat + 10)
  else if 'A' ≤ c && c ≤ 'F' then some (c.toNat - 'A'.toNat + 10)
  else none

def hexUnit? (a b c d : Char) : Option Nat := do
  return (((← hexDigit? a) * 16 + (← hexDigit? b)) * 16 + (← hexDigit? c)) * 16 + (← hexDigit? d)

def escaped? (c : Char) : Option Char :=
  if c = '\x22' || c = '\\' || c = '/' then some c
  else if c = 'b' then some '\x08'
  else if c = 'f' then some '\x0c'
  else if c = 'n' then some '\n'
  else if c = 'r' then some '\r'
  else if c = 't' then some '\t'
  else none

/-- What has been read of a string: its characters in reverse, the first half of a surrogate pair
that waits for the second, and whether some half has stayed alone. -/
structure Draft where
  reversed : List Char
  waiting : Option Nat
  broken : Bool

namespace Draft

def start : Draft := ⟨[], none, false⟩

def push (draft : Draft) (c : Char) : Draft :=
  ⟨c :: draft.reversed, none, draft.broken || draft.waiting.isSome⟩

def pushUnit (draft : Draft) (unit : Nat) : Draft :=
  match draft.waiting with
  | some high =>
      if 0xdc00 ≤ unit && unit ≤ 0xdfff then
        ⟨Char.ofNat (0x10000 + (high - 0xd800) * 0x400 + (unit - 0xdc00)) :: draft.reversed, none, draft.broken⟩
      else ⟨draft.reversed, none, true⟩
  | none =>
      if 0xd800 ≤ unit && unit ≤ 0xdbff then ⟨draft.reversed, some unit, draft.broken⟩
      else if 0xdc00 ≤ unit && unit ≤ 0xdfff then ⟨draft.reversed, none, true⟩
      else draft.push (Char.ofNat unit)

def finish (draft : Draft) : Json :=
  if draft.broken || draft.waiting.isSome then .brokenText
  else .text (String.ofList draft.reversed.reverse)

end Draft

def readText (draft : Draft) : List Char → Option (Json × List Char)
  | [] => none
  | '\\' :: 'u' :: a :: b :: c :: d :: rest =>
      match hexUnit? a b c d with
      | some unit => readText (draft.pushUnit unit) rest
      | none => none
  | '\\' :: c :: rest =>
      match escaped? c with
      | some plain => readText (draft.push plain) rest
      | none => none
  | c :: rest =>
      if c = '\x22' then some (draft.finish, rest)
      else if c < '\x20' || c = '\\' then none
      else readText (draft.push c) rest

def readDigits (cs : List Char) : Option (List Char × List Char) :=
  let digits := cs.takeWhile isDigit
  if digits.isEmpty then none else some (digits, cs.dropWhile isDigit)

def readWhole (cs : List Char) : Option (List Char × List Char) :=
  match readDigits cs with
  | some ('0' :: _ :: _, _) => none
  | result => result

def readFraction : List Char → Option (List Char × List Char)
  | '.' :: rest => (readDigits rest).map fun (digits, rest) => ('.' :: digits, rest)
  | cs => some ([], cs)

def readExponent : List Char → Option (List Char × List Char)
  | e :: sign :: rest =>
      if e = 'e' || e = 'E' then
        if sign = '+' || sign = '-' then
          (readDigits rest).map fun (digits, rest) => (e :: sign :: digits, rest)
        else (readDigits (sign :: rest)).map fun (digits, rest) => (e :: digits, rest)
      else some ([], e :: sign :: rest)
  | [c] => if c = 'e' || c = 'E' then none else some ([], [c])
  | [] => some ([], [])

def readNumber (cs : List Char) : Option (Json × List Char) := do
  let (sign, cs) := match cs with
    | '-' :: rest => (['-'], rest)
    | cs => ([], cs)
  let (whole, cs) ← readWhole cs
  let (fraction, cs) ← readFraction cs
  let (exponent, cs) ← readExponent cs
  return (.number (String.ofList (sign ++ whole ++ fraction ++ exponent)), cs)

def readName (cs : List Char) : Option (String × List Char) :=
  match skipSpace cs with
  | c :: rest =>
      if c = '\x22' then
        match readText .start rest with
        | some (.text name, rest) =>
            match skipSpace rest with
            | ':' :: rest => some (name, rest)
            | _ => none
        | _ => none
      else none
  | [] => none

mutual

/-- Reads a value. The fuel bounds the nesting and the number of items together. -/
def readValue : Nat → List Char → Option (Json × List Char)
  | 0, _ => none
  | fuel + 1, cs =>
      match skipSpace cs with
      | 'n' :: 'u' :: 'l' :: 'l' :: rest => some (.null, rest)
      | 't' :: 'r' :: 'u' :: 'e' :: rest => some (.bool true, rest)
      | 'f' :: 'a' :: 'l' :: 's' :: 'e' :: rest => some (.bool false, rest)
      | '[' :: rest =>
          match skipSpace rest with
          | ']' :: rest => some (.list [], rest)
          | rest => (readItems fuel rest).map fun (items, rest) => (.list items, rest)
      | '{' :: rest =>
          match skipSpace rest with
          | '}' :: rest => some (.object [], rest)
          | rest => (readFields fuel rest).map fun (fields, rest) => (.object fields, rest)
      | c :: rest => if c = '\x22' then readText .start rest else readNumber (c :: rest)
      | [] => none

def readItems : Nat → List Char → Option (List Json × List Char)
  | 0, _ => none
  | fuel + 1, cs =>
      match readValue fuel cs with
      | none => none
      | some (item, rest) =>
          match skipSpace rest with
          | ',' :: rest => (readItems fuel rest).map fun (items, rest) => (item :: items, rest)
          | ']' :: rest => some ([item], rest)
          | _ => none

def readFields : Nat → List Char → Option (List (String × Json) × List Char)
  | 0, _ => none
  | fuel + 1, cs =>
      match readName cs with
      | none => none
      | some (name, rest) =>
          match readValue fuel rest with
          | none => none
          | some (value, rest) =>
              match skipSpace rest with
              | ',' :: rest =>
                  (readFields fuel rest).map fun (fields, rest) => ((name, value) :: fields, rest)
              | '}' :: rest => some ([(name, value)], rest)
              | _ => none

end

end BytecodeParity.Json.Parser

namespace BytecodeParity.Json

def parse? (source : String) : Option Json :=
  let cs := source.toList
  match Parser.readValue (2 * cs.length + 2) cs with
  | some (json, rest) => if (Parser.skipSpace rest).isEmpty then some json else none
  | none => none

end BytecodeParity.Json
