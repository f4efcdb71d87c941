import BytecodeParity.Pattern.Basic
import BytecodeParity.Pattern.Flags
import BytecodeParity.Pattern.Property

set_option autoImplicit false

namespace BytecodeParity.Pattern

inductive Escaped where
  | literal (c : Char)
  | set (set : CharSet)
  | assertion (assertion : Assertion)

namespace Flags

def wordSet (flags : Flags) : CharSet :=
  if flags.unicode then .word else CharSet.asciiWord

def foldSet (flags : Flags) (set : CharSet) : CharSet :=
  if !flags.ignoreCase then set
  else if flags.unicode then .anyCase set
  else .asciiCase set

/-- A class of characters or its complement. Without Unicode a complement would reach into the bytes
of a character, so it is refused. -/
def classSet? (flags : Flags) (negated : Bool) (unicode ascii : CharSet) : Option CharSet :=
  if flags.unicode then some (.complementIf negated unicode)
  else if negated then none
  else some ascii

end Flags

namespace Escape

def hexDigit? (c : Char) : Option Nat :=
  if '0' ≤ c && c ≤ '9' then some (c.toNat - '0'.toNat)
  else if 'a' ≤ c && c ≤ 'f' then some (c.toNat - 'a'.toNat + 10)
  else if 'A' ≤ c && c ≤ 'F' then some (c.toNat - 'A'.toNat + 10)
  else none

def ofHexDigits? (digits : List Char) : Option Char := do
  let values ← digits.mapM hexDigit?
  let code := values.foldl (fun code value => if code > 0x10ffff then code else 16 * code + value) 0
  if code.isValidChar && !digits.isEmpty then some (Char.ofNat code) else none

def take? (flags : Flags) : Nat → List Char → Option (List Char × List Char)
  | 0, cs => some ([], cs)
  | count + 1, cs =>
      match flags.skip cs with
      | [] => none
      | c :: rest => (take? flags count rest).map fun (taken, rest) => (c :: taken, rest)

def takeBraced? (flags : Flags) (cs : List Char) : Option (List Char × List Char) :=
  match flags.collect (· ≠ '}') false cs with
  | (taken, '}' :: rest) => some (taken, rest)
  | _ => none

def takeName? (flags : Flags) (count : Nat) : List Char → Option (List Char × List Char)
  | '{' :: rest => takeBraced? flags rest
  | cs => take? flags count cs

def readHex? (flags : Flags) (digits : Nat) (cs : List Char) : Option (Escaped × List Char) := do
  let (taken, rest) ← takeName? flags digits (flags.skip cs)
  return (.literal (← ofHexDigits? taken), rest)

/-- A character by two digits, which without Unicode stand for a byte, or by any count in braces. -/
def readByte? (flags : Flags) (cs : List Char) : Option (Escaped × List Char) :=
  match flags.skip cs with
  | '{' :: rest => readHex? flags 2 ('{' :: rest)
  | cs =>
      match readHex? flags 2 cs with
      | some (.literal c, rest) => if flags.unicode || c.toNat < 0x80 then some (.literal c, rest) else none
      | other => other

def property? (flags : Flags) (negated : Bool) (name : List Char) : Option Escaped :=
  if flags.unicode then
    (CharSet.ofProperty? name).map fun set => .set (.complementIf negated (flags.foldSet set))
  else none

def readProperty? (flags : Flags) (negated : Bool) (cs : List Char) : Option (Escaped × List Char) := do
  let (name, rest) ← takeName? flags 1 (flags.skip cs)
  return (← property? flags negated name, rest)

def boundary? (inside : CharSet) (name : List Char) : Option Assertion :=
  if name = "start".toList then some (.wordStart inside)
  else if name = "end".toList then some (.wordEnd inside)
  else if name = "start-half".toList then some (.wordStartHalf inside)
  else if name = "end-half".toList then some (.wordEndHalf inside)
  else none

def isBoundaryLetter (c : Char) : Bool :=
  c.isAlpha || c = '-'

/-- A word boundary. A brace after it names a kind of boundary when a letter follows, and counts
repetitions otherwise. -/
def readBoundary? (flags : Flags) (cs : List Char) : Option (Escaped × List Char) :=
  let plain := (Escaped.assertion (.wordBoundary flags.wordSet), cs)
  match cs with
  | '{' :: rest =>
      match flags.skip rest with
      | [] => some plain
      | c :: _ =>
          if isBoundaryLetter c then do
            let (name, rest) ← takeBraced? flags rest
            return (.assertion (← boundary? flags.wordSet name), rest)
          else some plain
  | _ => some plain

def control? : Char → Option Char
  | 'a' => some '\x07'
  | 't' => some '\t'
  | 'f' => some '\x0c'
  | 'n' => some '\n'
  | 'r' => some '\r'
  | 'v' => some '\x0b'
  | _ => none

def isEscapable (c : Char) : Bool :=
  c.toNat < 0x80 && !c.isAlphanum && c ≠ '<' && c ≠ '>'

def alone? (flags : Flags) (c : Char) : Option Escaped :=
  match c with
  | 'd' => (flags.classSet? false .digit CharSet.asciiDigit).map .set
  | 'D' => (flags.classSet? true .digit CharSet.asciiDigit).map .set
  | 's' => (flags.classSet? false .blank CharSet.asciiBlank).map .set
  | 'S' => (flags.classSet? true .blank CharSet.asciiBlank).map .set
  | 'w' => (flags.classSet? false .word CharSet.asciiWord).map .set
  | 'W' => (flags.classSet? true .word CharSet.asciiWord).map .set
  | 'A' => some (.assertion .textStart)
  | 'z' => some (.assertion .textEnd)
  | 'B' => some (.assertion (.noWordBoundary flags.wordSet))
  | '<' => some (.assertion (.wordStart flags.wordSet))
  | '>' => some (.assertion (.wordEnd flags.wordSet))
  | c =>
      match control? c with
      | some control => some (.literal control)
      | none => if isEscapable c then some (.literal c) else none

def read? (flags : Flags) : List Char → Option (Escaped × List Char)
  | [] => none
  | 'x' :: rest => readByte? flags rest
  | 'u' :: rest => readHex? flags 4 rest
  | 'U' :: rest => readHex? flags 8 rest
  | 'p' :: rest => readProperty? flags false rest
  | 'P' :: rest => readProperty? flags true rest
  | 'b' :: rest => readBoundary? flags rest
  | c :: rest => (alone? flags c).map fun escaped => (escaped, rest)

end Escape

end BytecodeParity.Pattern
