import BytecodeParity.Pattern.Escape
import BytecodeParity.Text.Basic
import BytecodeParity.Yaml.Basic

set_option autoImplicit false

namespace BytecodeParity.Yaml.Scalar

/-- What the blanks and line breaks between two parts of a scalar stand for: blanks on one line
stand for themselves, one line break for a space, and further line breaks for themselves. -/
def fold (gap : List Char) : List Char :=
  match gap.filter fun c => c = '\n' with
  | [] => gap
  | [_] => [' ']
  | _ :: breaks => breaks

def escaped? : Char → Option Char
  | '0' => some '\x00'
  | 'a' => some '\x07'
  | 'b' => some '\x08'
  | 't' => some '\t'
  | '\t' => some '\t'
  | 'n' => some '\n'
  | 'v' => some '\x0b'
  | 'f' => some '\x0c'
  | 'r' => some '\r'
  | 'e' => some '\x1b'
  | ' ' => some ' '
  | '\x22' => some '\x22'
  | '/' => some '/'
  | '\\' => some '\\'
  | 'N' => some '\u0085'
  | '_' => some '\u00a0'
  | 'L' => some '\u2028'
  | 'P' => some '\u2029'
  | _ => none

def hexCount? : Char → Option Nat
  | 'x' => some 2
  | 'u' => some 4
  | 'U' => some 8
  | _ => none

def readEscape? : List Char → Option (List Char × List Char)
  | [] => none
  | '\n' :: rest => some ([], rest.dropWhile fun c => isBlank c || c = '\n')
  | c :: rest =>
      match hexCount? c with
      | some count =>
          if (rest.take count).length = count then
            (Pattern.Escape.ofHexDigits? (rest.take count)).map fun c => ([c], rest.drop count)
          else none
      | none => (escaped? c).map fun c => ([c], rest)

def isGapChar (c : Char) : Bool :=
  isBlank c || c = '\n'

def readQuoted? (quote : Char) : Nat → List Char → Option (List Char × Bool × List Char)
  | 0, _ => none
  | _ + 1, [] => none
  | fuel + 1, c :: rest =>
      let continueWith (part : List Char) (oneLine : Bool) (rest : List Char) :
          Option (List Char × Bool × List Char) :=
        (readQuoted? quote fuel rest).map fun (text, restOneLine, rest) =>
          (part ++ text, oneLine && restOneLine, rest)
      if isGapChar c then
        let gap := (c :: rest).takeWhile isGapChar
        let rest := (c :: rest).drop gap.length
        if gap.getLast? = some '\n' && isDocumentMark rest then none
        else continueWith (fold gap) (!gap.contains '\n') rest
      else if c = quote then
        match rest with
        | next :: rest =>
            if quote = '\x27' && next = '\x27' then continueWith ['\x27'] true rest
            else some ([], true, next :: rest)
        | [] => some ([], true, [])
      else if quote = '\x22' && c = '\\' then
        match readEscape? rest with
        | some (part, after) => continueWith part (rest.head? ≠ some '\n') after
        | none => none
      else continueWith [c] true rest

def flowMarks : List Char :=
  [',', '[', ']', '{', '}']

/-- Whether an unquoted scalar ends here: before a colon or behind a blank before a comment, and
inside brackets before any of their marks. -/
def endsPlain (inFlow afterBlank : Bool) : List Char → Bool
  | [] => true
  | '\n' :: _ => true
  | '#' :: _ => afterBlank
  | ':' :: rest =>
      endsToken rest || (inFlow && match rest with
        | c :: _ => flowMarks.contains c
        | [] => true)
  | c :: _ => inFlow && flowMarks.contains c

def readPlainLine (inFlow afterBlank : Bool) : List Char → List Char × List Char
  | [] => ([], [])
  | c :: rest =>
      if endsPlain inFlow afterBlank (c :: rest) then ([], c :: rest)
      else
        let (text, rest) := readPlainLine inFlow (isBlank c) rest
        (c :: text, rest)

def dropEndBlanks (cs : List Char) : List Char :=
  (cs.reverse.dropWhile isBlank).reverse

def startMarks : List Char :=
  [',', '[', ']', '{', '}', '#', '&', '*', '!', '|', '>', '\x27', '\x22', '%', '@', '\x60']

def startsPlain (inFlow : Bool) : List Char → Bool
  | [] => false
  | c :: rest =>
      if ['-', '?', ':'].contains c then
        !endsToken rest && !(inFlow && match rest with
          | next :: _ => flowMarks.contains next
          | [] => true)
      else !isGapChar c && !startMarks.contains c

def readPlainRest? (inFlow : Bool) (least : Nat) : Nat → List Char → Option (List Char × List Char)
  | 0, _ => none
  | fuel + 1, cs =>
      let blanks := cs.takeWhile isGapChar
      let rest := cs.drop blanks.length
      let indent := (blanks.reverse.takeWhile fun c => c ≠ '\n').length
      if !blanks.contains '\n' || rest.isEmpty || (!inFlow && indent < least) ||
          (indent = 0 && isDocumentMark rest) || rest.head? = some '#' ||
          endsPlain inFlow true rest then some ([], cs)
      else
        let (line, rest) := readPlainLine inFlow true rest
        (readPlainRest? inFlow least fuel rest).map fun (more, rest) =>
          (fold blanks ++ dropEndBlanks line ++ more, rest)

inductive Chomp where
  | strip
  | clip
  | keep
deriving DecidableEq, Repr

def readHeader? (chomp : Option Chomp) (indent : Option Nat) : List Char → Option (Chomp × Option Nat × List Char)
  | '-' :: rest => if chomp.isSome then none else readHeader? (some .strip) indent rest
  | '+' :: rest => if chomp.isSome then none else readHeader? (some .keep) indent rest
  | c :: rest =>
      if '1' ≤ c && c ≤ '9' then
        if indent.isSome then none else readHeader? chomp (some (c.toNat - '0'.toNat)) rest
      else
        let rest := (c :: rest).dropWhile isBlank
        let rest := if rest.head? = some '#' then rest.dropWhile fun c => c ≠ '\n' else rest
        match rest with
        | [] => some (chomp.getD .clip, indent, [])
        | '\n' :: rest => some (chomp.getD .clip, indent, rest)
        | _ => none
  | [] => some (chomp.getD .clip, indent, [])

def readBlockLines (indent : Nat) : Nat → List Char → List (List Char) × List Char
  | 0, cs => ([], cs)
  | fuel + 1, cs =>
      if cs.isEmpty then ([], [])
      else
        let spaces := (cs.takeWhile fun c => c = ' ').length
        let line := (cs.takeWhile fun c => c ≠ '\n').drop (min spaces indent)
        let rest := cs.dropWhile fun c => c ≠ '\n'
        if spaces < indent && !line.isEmpty then ([], cs)
        else
          let (lines, rest) := readBlockLines indent fuel (rest.drop 1)
          (line :: lines, rest)

def foldLines : List (List Char) → List Char
  | [] => []
  | [line] => line
  | line :: rest =>
      let empties := rest.takeWhile List.isEmpty
      let startsBlank (line : List Char) : Bool :=
        match line with
        | c :: _ => isBlank c
        | [] => false
      let breaks := List.replicate empties.length '\n'
      match rest.drop empties.length with
      | [] => line
      | next :: _ =>
          if line.isEmpty then '\n' :: foldLines rest
          else if startsBlank line || startsBlank next then
            line ++ ('\n' :: breaks) ++ foldLines (rest.drop empties.length)
          else line ++ (if empties.isEmpty then [' '] else breaks) ++ foldLines (rest.drop empties.length)
termination_by lines => lines.length
decreasing_by all_goals (simp only [List.length_drop, List.length_cons]; omega)

def readBlock? (folded : Bool) (least : Nat) (cs : List Char) : Option (List Char × List Char) := do
  let (chomp, given, rest) ← readHeader? none none cs
  let blanks := rest.takeWhile fun c => c = ' ' || c = '\n'
  let found := (blanks.reverse.takeWhile fun c => c = ' ').length
  let indent := match given with
    | some indent => (least - 1) + indent
    | none => max (max found least) 1
  let (lines, after) := readBlockLines indent (rest.length + 1) rest
  let inked := (lines.reverse.dropWhile List.isEmpty).reverse
  let ending := List.replicate (lines.length - inked.length) '\n'
  let body := if folded then foldLines inked else (inked.intersperse ['\n']).flatten
  let body := match chomp with
    | .strip => body
    | .clip => if inked.isEmpty then body else body ++ ['\n']
    | .keep => if inked.isEmpty then ending else body ++ ['\n'] ++ ending
  return (body, after)

end BytecodeParity.Yaml.Scalar
