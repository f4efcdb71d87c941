set_option autoImplicit false

namespace BytecodeParity.Text

def occurs (part : List Char) : List Char → Bool
  | [] => part.isEmpty
  | c :: rest => part.isPrefixOf (c :: rest) || occurs part rest

/-- Whether `part` is a contiguous part of `whole`. The empty text is part of every text. -/
def contains (whole part : String) : Bool :=
  occurs part.toList whole.toList

def cutAt (mark : List Char) : List Char → Option (List Char × List Char)
  | [] => if mark.isEmpty then some ([], []) else none
  | c :: rest =>
      if mark.isPrefixOf (c :: rest) then some ([], (c :: rest).drop mark.length)
      else (cutAt mark rest).map fun (before, after) => (c :: before, after)

/-- The pieces between the separators; there is one piece more than there are separators. -/
def splitChars (separator : Char) : List Char → List (List Char)
  | [] => [[]]
  | c :: rest =>
      match splitChars separator rest with
      | [] => [[c]]
      | piece :: pieces => if c = separator then [] :: piece :: pieces else (c :: piece) :: pieces

def split (separator : Char) (s : String) : List String :=
  (splitChars separator s.toList).map String.ofList

/-- Whether a character has the Unicode property White_Space. -/
def isBlank (c : Char) : Bool :=
  ('\x09' ≤ c && c ≤ '\x0d') || c = '\x20' || c = '\u0085' || c = '\u00a0' || c = '\u1680' ||
    ('\u2000' ≤ c && c ≤ '\u200a') || c = '\u2028' || c = '\u2029' || c = '\u202f' ||
    c = '\u205f' || c = '\u3000'

def dropBlanks (cs : List Char) : List Char :=
  cs.dropWhile isBlank

def dropEndBlanks (cs : List Char) : List Char :=
  (cs.reverse.dropWhile isBlank).reverse

def trimChars (cs : List Char) : List Char :=
  dropEndBlanks (dropBlanks cs)

def trim (s : String) : String :=
  String.ofList (trimChars s.toList)

def startsInked (s : String) : Bool :=
  match s.toList with
  | [] => false
  | c :: _ => !isBlank c

/-- A finished line, given with its characters in reverse, without its carriage return. -/
def finishLine : List Char → String
  | '\r' :: reversed => String.ofList reversed.reverse
  | reversed => String.ofList reversed.reverse

def linesFrom (reversed : List Char) : List Char → List String
  | [] => if reversed.isEmpty then [] else [String.ofList reversed.reverse]
  | '\n' :: rest => finishLine reversed :: linesFrom [] rest
  | c :: rest => linesFrom (c :: reversed) rest

def lines (s : String) : List String :=
  linesFrom [] s.toList

end BytecodeParity.Text
