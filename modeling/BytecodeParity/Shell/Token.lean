import BytecodeParity.Shell.Syntax

set_option autoImplicit false

namespace BytecodeParity.Shell

inductive Token where
  | word (word : Word)
  | redirection (redirection : Redirection)
  | newline
  | semicolon
  | both
  | either
  | doubleSemicolon
  | pipe
  | opening
  | closing
deriving DecidableEq, Repr

namespace Token

def isNameStart (c : Char) : Bool :=
  c.isAlpha || c = '_'

def isNamePart (c : Char) : Bool :=
  c.isAlphanum || c = '_'

/-- Takes the script inside parentheses up to the closing one; quoted text is passed over. The quote
that is open, if any, comes with the number of open parentheses. -/
def takeScript? (quote : Option Char) (depth : Nat) : List Char → Option (List Char × List Char)
  | [] => none
  | '\\' :: c :: rest =>
      (takeScript? quote depth rest).map fun (inside, rest) => ('\\' :: c :: inside, rest)
  | c :: rest =>
      let continueWith (quote : Option Char) (depth : Nat) : Option (List Char × List Char) :=
        (takeScript? quote depth rest).map fun (inside, rest) => (c :: inside, rest)
      match quote with
      | some mark => continueWith (if c = mark then none else quote) depth
      | none =>
          if c = '\x27' || c = '\x22' then continueWith (some c) depth
          else if c = '(' then continueWith none (depth + 1)
          else if c = ')' then if depth = 0 then some ([], rest) else continueWith none (depth - 1)
          else continueWith none depth

def readDollar? (quoted : Bool) : List Char → Option (Part × List Char)
  | '(' :: rest =>
      (takeScript? none 0 rest).map fun (inside, rest) => (.output (String.ofList inside) quoted, rest)
  | '{' :: rest =>
      let name := rest.takeWhile fun c => c ≠ '}'
      match rest.drop name.length with
      | '}' :: rest => some (.parameter (String.ofList name) quoted, rest)
      | _ => none
  | c :: rest =>
      if isNameStart c then
        let name := c :: rest.takeWhile isNamePart
        some (.parameter (String.ofList name) quoted, (c :: rest).drop name.length)
      else if c.isDigit || ['#', '*', '@', '?', '$', '!', '-'].contains c then
        some (.parameter (String.ofList [c]) quoted, rest)
      else some (.quoted "$", c :: rest)
  | [] => some (.quoted "$", [])

def readDoubleQuoted? : Nat → List Char → Option (Word × List Char)
  | 0, _ => none
  | _ + 1, [] => none
  | fuel + 1, c :: rest =>
      let continueWith (part : Part) (rest : List Char) : Option (Word × List Char) :=
        (readDoubleQuoted? fuel rest).map fun (parts, rest) => (part :: parts, rest)
      if c = '\x22' then some ([], rest)
      else if c = '$' then
        match readDollar? true rest with
        | some (part, rest) => continueWith part rest
        | none => none
      else if c = '\\' then
        match rest with
        | '\n' :: rest => readDoubleQuoted? fuel rest
        | next :: after =>
            if ['$', '\x60', '\x22', '\\'].contains next then continueWith (.quoted (String.ofList [next])) after
            else continueWith (.quoted "\\") rest
        | [] => none
      else continueWith (.quoted (String.ofList [c])) rest

def isMark (c : Char) : Bool :=
  [' ', '\t', '\n', ';', '&', '|', '<', '>', '(', ')'].contains c

def joinParts : Word → Word
  | [] => []
  | part :: rest =>
      match part, joinParts rest with
      | .literal a, .literal b :: more => .literal (a ++ b) :: more
      | .quoted a, .quoted b :: more => .quoted (a ++ b) :: more
      | part, more => part :: more

def readParts? : Nat → List Char → Option (Word × List Char)
  | 0, _ => none
  | _ + 1, [] => some ([], [])
  | fuel + 1, c :: rest =>
      let continueWith (parts : Word) (rest : List Char) : Option (Word × List Char) :=
        (readParts? fuel rest).map fun (more, rest) => (parts ++ more, rest)
      if isMark c then some ([], c :: rest)
      else if c = '\x27' then
        let inside := rest.takeWhile fun c => c ≠ '\x27'
        match rest.drop inside.length with
        | _ :: rest => continueWith [.quoted (String.ofList inside)] rest
        | [] => none
      else if c = '\x22' then
        match readDoubleQuoted? fuel rest with
        | some (parts, rest) => continueWith (.quoted "" :: parts) rest
        | none => none
      else if c = '$' then
        match readDollar? false rest with
        | some (part, rest) => continueWith [part] rest
        | none => none
      else if c = '\\' then
        match rest with
        | '\n' :: rest => readParts? fuel rest
        | next :: rest => continueWith [.quoted (String.ofList [next])] rest
        | [] => continueWith [.quoted "\\"] []
      else continueWith [.literal (String.ofList [c])] rest

def readWord? (cs : List Char) : Option (Word × List Char) :=
  (readParts? (cs.length + 1) cs).map fun (parts, rest) => (joinParts parts, rest)

def skipBlanks (cs : List Char) : List Char :=
  cs.dropWhile fun c => c = ' ' || c = '\t'

def readRedirection? (descriptor : Option Nat) (cs : List Char) : Option (Redirection × List Char) :=
  let (direction, standard, rest) : Direction × Nat × List Char :=
    match cs with
    | '>' :: '>' :: rest => (.append, 1, rest)
    | '>' :: '&' :: rest => (.duplicate, 1, rest)
    | '>' :: '|' :: rest => (.write, 1, rest)
    | '<' :: rest => (.read, 0, rest)
    | cs => (.write, 1, cs.drop 1)
  match readWord? (skipBlanks rest) with
  | some (target, rest) =>
      if target.isEmpty then none else some (⟨descriptor.getD standard, direction, target⟩, rest)
  | none => none

def descriptor? : List Char → Option (Nat × List Char)
  | digit :: mark :: rest =>
      if digit.isDigit && (mark = '<' || mark = '>') then some (digit.toNat - '0'.toNat, mark :: rest) else none
  | _ => none

def read? : Nat → List Char → Option (List Token)
  | 0, _ => none
  | fuel + 1, cs =>
      let continueWith (token : Token) (rest : List Char) : Option (List Token) :=
        (read? fuel rest).map (token :: ·)
      match skipBlanks cs with
      | [] => some []
      | '\n' :: rest => continueWith .newline rest
      | '\\' :: '\n' :: rest => read? fuel rest
      | '#' :: rest => read? fuel (rest.dropWhile fun c => c ≠ '\n')
      | ';' :: ';' :: rest => continueWith .doubleSemicolon rest
      | ';' :: rest => continueWith .semicolon rest
      | '&' :: '&' :: rest => continueWith .both rest
      | '|' :: '|' :: rest => continueWith .either rest
      | '|' :: rest => continueWith .pipe rest
      | '&' :: _ => none
      | '(' :: rest => continueWith .opening rest
      | ')' :: rest => continueWith .closing rest
      | cs =>
          let redirect (descriptor : Option Nat) (cs : List Char) : Option (List Token) :=
            match readRedirection? descriptor cs with
            | some (found, rest) => continueWith (.redirection found) rest
            | none => none
          match descriptor? cs with
          | some (descriptor, rest) => redirect (some descriptor) rest
          | none =>
              if cs.head? = some '<' || cs.head? = some '>' then redirect none cs
              else
                match readWord? cs with
                | some (parts, rest) => continueWith (.word parts) rest
                | none => none

def spelled? : Token → Option String
  | .word [.literal text] => some text
  | _ => none

end Token

end BytecodeParity.Shell
