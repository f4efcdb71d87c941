import BytecodeParity.Shell.Token

set_option autoImplicit false

namespace BytecodeParity.Shell.Parser

def isSeparator : Token → Bool
  | .newline => true
  | .semicolon => true
  | _ => false

def skipNewlines (tokens : List Token) : List Token :=
  tokens.dropWhile fun token => token = .newline

def closingWords : List String :=
  ["then", "elif", "else", "fi", "do", "done", "esac", "\x7d"]

def endsList : List Token → Bool
  | [] => true
  | .closing :: _ => true
  | .doubleSemicolon :: _ => true
  | token :: _ =>
      match token.spelled? with
      | some word => closingWords.contains word
      | none => false

def expect? (word : String) : List Token → Option (List Token)
  | [] => none
  | token :: rest => if token.spelled? = some word then some rest else none

def assignment? : Word → Option (String × Word)
  | .literal text :: rest =>
      let cs := text.toList
      let name := cs.takeWhile Token.isNamePart
      match cs.drop name.length with
      | '=' :: value =>
          if name.head?.any Token.isNameStart then
            some (String.ofList name, (if value.isEmpty then [] else [.literal (String.ofList value)]) ++ rest)
          else none
      | _ => none
  | _ => none

def readSimple (assignments : List (String × Word)) (words : List Word) (redirections : List Redirection) :
    List Token → Command × List Token
  | .word word :: rest =>
      match (if words.isEmpty then assignment? word else none) with
      | some assignment => readSimple (assignments ++ [assignment]) words redirections rest
      | none => readSimple assignments (words ++ [word]) redirections rest
  | .redirection redirection :: rest => readSimple assignments words (redirections ++ [redirection]) rest
  | tokens => (.simple assignments words redirections, tokens)

def readRedirections : List Token → List Redirection × List Token
  | .redirection redirection :: rest =>
      let (redirections, rest) := readRedirections rest
      (redirection :: redirections, rest)
  | tokens => ([], tokens)

def readWords : List Token → List Word × List Token
  | .word word :: rest =>
      let (words, rest) := readWords rest
      (word :: words, rest)
  | tokens => ([], tokens)

def readPatterns? : List Token → Option (List Word × List Token)
  | .word word :: .closing :: rest => some ([word], rest)
  | .word word :: .pipe :: rest => (readPatterns? rest).map fun (words, rest) => (word :: words, rest)
  | _ => none

mutual

def readList? : Nat → List Token → Option (Command × List Token)
  | 0, _ => none
  | fuel + 1, tokens =>
      let tokens := tokens.dropWhile isSeparator
      if endsList tokens then some (.nothing, tokens)
      else
        match readAndOr? fuel tokens with
        | none => none
        | some (first, rest) =>
            match rest with
            | [] => some (first, [])
            | token :: _ =>
                if isSeparator token then
                  (readList? fuel rest).map fun (second, rest) =>
                    (match second with
                      | .nothing => first
                      | second => .sequence first second, rest)
                else if endsList rest then some (first, rest)
                else none

def readAndOr? : Nat → List Token → Option (Command × List Token)
  | 0, _ => none
  | fuel + 1, tokens =>
      match readCommand? fuel tokens with
      | none => none
      | some (first, rest) => readMore? fuel first rest

def readMore? : Nat → Command → List Token → Option (Command × List Token)
  | 0, _, _ => none
  | fuel + 1, first, tokens =>
      match tokens with
      | .both :: rest =>
          match readCommand? fuel (skipNewlines rest) with
          | some (second, rest) => readMore? fuel (.both first second) rest
          | none => none
      | .either :: rest =>
          match readCommand? fuel (skipNewlines rest) with
          | some (second, rest) => readMore? fuel (.either first second) rest
          | none => none
      | tokens => some (first, tokens)

def readCommand? : Nat → List Token → Option (Command × List Token)
  | 0, _ => none
  | fuel + 1, tokens =>
      match readBare? fuel tokens with
      | none => none
      | some (command, rest) =>
          match readRedirections rest with
          | ([], rest) => some (command, rest)
          | (redirections, rest) => some (.redirected command redirections, rest)

def readBare? : Nat → List Token → Option (Command × List Token)
  | 0, _ => none
  | fuel + 1, tokens =>
      match tokens with
      | [] => none
      | .opening :: rest =>
          match readList? fuel rest with
          | some (command, .closing :: rest) => some (.subshell command, rest)
          | _ => none
      | token :: rest =>
          match token.spelled? with
          | some "!" => (readCommand? fuel rest).map fun (command, rest) => (.negated command, rest)
          | some "if" => readConditional? fuel rest
          | some "case" =>
              match rest with
              | .word subject :: rest =>
                  match expect? "in" (skipNewlines rest) with
                  | some rest => readArms? fuel subject rest
                  | none => none
              | _ => none
          | some "for" => readLoop? fuel rest
          | some "\x7b" =>
              match readList? fuel rest with
              | some (command, rest) => (expect? "\x7d" rest).map fun rest => (command, rest)
              | none => none
          | some _ => readPlain? tokens
          | none => readPlain? tokens

def readPlain? (tokens : List Token) : Option (Command × List Token) :=
  if endsList tokens then none
  else
    match readSimple [] [] [] tokens with
    | (.simple [] [] [], _) => none
    | result => some result

def readConditional? : Nat → List Token → Option (Command × List Token)
  | 0, _ => none
  | fuel + 1, tokens => do
      let (condition, rest) ← readList? fuel tokens
      let rest ← expect? "then" rest
      let (yes, rest) ← readList? fuel rest
      match rest with
      | [] => none
      | token :: rest =>
          match token.spelled? with
          | some "fi" => some (.conditional condition yes .nothing, rest)
          | some "elif" => (readConditional? fuel rest).map fun (no, rest) => (.conditional condition yes no, rest)
          | some "else" =>
              match readList? fuel rest with
              | some (no, rest) => (expect? "fi" rest).map fun rest => (.conditional condition yes no, rest)
              | none => none
          | _ => none

def readArms? : Nat → Word → List Token → Option (Command × List Token)
  | 0, _, _ => none
  | fuel + 1, subject, tokens =>
      let tokens := skipNewlines tokens
      match expect? "esac" tokens with
      | some rest => some (.nothing, rest)
      | none =>
          let tokens := match tokens with
            | .opening :: rest => rest
            | tokens => tokens
          match readPatterns? tokens with
          | none => none
          | some (patterns, rest) =>
              match readList? fuel rest with
              | none => none
              | some (body, rest) =>
                  match rest with
                  | .doubleSemicolon :: rest =>
                      (readArms? fuel subject rest).map fun (otherwise, rest) =>
                        (.select subject patterns body otherwise, rest)
                  | rest =>
                      (expect? "esac" rest).map fun rest => (.select subject patterns body .nothing, rest)

def readLoop? : Nat → List Token → Option (Command × List Token)
  | 0, _ => none
  | fuel + 1, tokens =>
      match tokens with
      | .word [.literal name] :: rest => do
          let rest := skipNewlines rest
          let (values, rest) ←
            match expect? "in" rest with
            | some rest => some (readWords rest)
            | none => some ([[.parameter "@" true]], rest)
          let rest ← expect? "do" (rest.dropWhile isSeparator)
          let (body, rest) ← readList? fuel rest
          let rest ← expect? "done" rest
          return (.forEach name values body, rest)
      | _ => none

end

end BytecodeParity.Shell.Parser

namespace BytecodeParity.Shell

def parse? (source : String) : Option Command := do
  let cs := source.toList
  let tokens ← Token.read? (cs.length + 1) cs
  match Parser.readList? (6 * tokens.length + 6) tokens with
  | some (command, []) => some command
  | _ => none

end BytecodeParity.Shell
