import BytecodeParity.Yaml.Basic
import BytecodeParity.Yaml.Scalar

set_option autoImplicit false

namespace BytecodeParity.Yaml.Parser

def startsEntry : List Char → Bool
  | '-' :: rest => endsToken rest
  | _ => false

def endsKey : List Char → Bool
  | ':' :: rest => endsToken rest
  | _ => false

def skipFlow (cs : List Char) : Option (List Char) :=
  match Gap.skip .flow false .start cs with
  | some (gap, rest) => if gap.endsDocument rest then none else some rest
  | none => none

def readFlowScalar? (cs : List Char) : Option (Yaml × Bool × List Char) :=
  match cs with
  | [] => none
  | c :: rest =>
      if c = '\x22' || c = '\x27' then
        (Scalar.readQuoted? c (rest.length + 1) rest).map fun (text, _, rest) =>
          (.scalar (String.ofList text) false, true, rest)
      else if Scalar.startsPlain true cs then
        let (line, rest) := Scalar.readPlainLine true false cs
        (Scalar.readPlainRest? true 0 (rest.length + 1) rest).map fun (more, rest) =>
          (.scalar (String.ofList (Scalar.dropEndBlanks line ++ more)) true, false, rest)
      else if c = ',' || c = ':' || c = ']' || c = '}' then some (.nothing, false, cs)
      else none

mutual

/-- Reads a node inside brackets; the flag tells a node that a colon may follow without a blank. -/
def readFlow? : Nat → List Char → Option (Yaml × Bool × List Char)
  | 0, _ => none
  | fuel + 1, cs =>
      match cs with
      | '[' :: rest => (readFlowItems? fuel rest).map fun (items, rest) => (.list items, true, rest)
      | '{' :: rest => (readFlowPairs? fuel rest).map fun (pairs, rest) => (.mapping pairs, true, rest)
      | cs => readFlowScalar? cs

def readFlowValue? : Nat → Bool → List Char → Option (Yaml × List Char)
  | 0, _, _ => none
  | fuel + 1, tight, cs =>
      match skipFlow cs with
      | some (':' :: rest) =>
          if tight || Scalar.endsPlain true false (':' :: rest) then
            match skipFlow rest with
            | some rest => (readFlow? fuel rest).map fun (value, _, rest) => (value, rest)
            | none => none
          else none
      | some rest => some (.nothing, rest)
      | none => none

def readFlowItems? : Nat → List Char → Option (List Yaml × List Char)
  | 0, _ => none
  | fuel + 1, cs =>
      match skipFlow cs with
      | none => none
      | some (']' :: rest) => some ([], rest)
      | some (',' :: _) => none
      | some cs =>
          match readFlow? fuel cs with
          | none => none
          | some (item, tight, rest) =>
              let paired :=
                match skipFlow rest with
                | some (':' :: _) =>
                    (readFlowValue? fuel tight rest).map fun (value, rest) => (Yaml.mapping [(item, value)], rest)
                | _ => some (item, rest)
              match paired with
              | none => none
              | some (item, rest) =>
                  match skipFlow rest with
                  | some (',' :: rest) => (readFlowItems? fuel rest).map fun (items, rest) => (item :: items, rest)
                  | some (']' :: rest) => some ([item], rest)
                  | _ => none

def readFlowPairs? : Nat → List Char → Option (List (Yaml × Yaml) × List Char)
  | 0, _ => none
  | fuel + 1, cs =>
      match skipFlow cs with
      | none => none
      | some ('}' :: rest) => some ([], rest)
      | some (',' :: _) => none
      | some cs =>
          match readFlow? fuel cs with
          | none => none
          | some (key, tight, rest) =>
              match readFlowValue? fuel tight rest with
              | none => none
              | some (value, rest) =>
                  match skipFlow rest with
                  | some (',' :: rest) =>
                      (readFlowPairs? fuel rest).map fun (pairs, rest) => ((key, value) :: pairs, rest)
                  | some ('}' :: rest) => some ([(key, value)], rest)
                  | _ => none

end

def readLine? (cs : List Char) : Option (Yaml × Bool × List Char) :=
  match cs with
  | [] => none
  | c :: rest =>
      if c = '\x22' || c = '\x27' then
        (Scalar.readQuoted? c (rest.length + 1) rest).map fun (text, oneLine, rest) =>
          (.scalar (String.ofList text) false, oneLine, rest.dropWhile isBlank)
      else if Scalar.startsPlain false cs then
        let (line, rest) := Scalar.readPlainLine false false cs
        some (.scalar (String.ofList (Scalar.dropEndBlanks line)) true, true, rest)
      else none

def readKey? (cs : List Char) : Option (Yaml × List Char) :=
  match readLine? cs with
  | some (key, true, rest) => if endsKey rest then some (key, rest.drop 1) else none
  | _ => none

def continueScalar? (least : Nat) : Yaml → List Char → Option (Yaml × List Char)
  | .scalar text true, cs =>
      (Scalar.readPlainRest? false least (cs.length + 1) cs).map fun (more, rest) =>
        (.scalar (text ++ String.ofList more) true, rest)
  | node, cs => some (node, cs)

mutual

/-- Reads a node at a column. Where `fresh` is set an entry of a block collection may start; further
lines of the node are indented by `least`. -/
def readBlock? : Nat → Nat → Bool → Nat → List Char → Option (Yaml × List Char)
  | 0, _, _, _, _ => none
  | fuel + 1, least, fresh, column, cs =>
      match cs with
      | [] => none
      | c :: rest =>
          if startsEntry cs then
            if fresh then (readEntries? fuel column rest).map fun (items, rest) => (.list items, rest) else none
          else if c = '[' || c = '{' then
            match readFlow? (2 * cs.length + 2) cs with
            | some (node, _, rest) => if endsKey (rest.dropWhile isBlank) then none else some (node, rest)
            | none => none
          else if c = '|' || c = '>' then
            (Scalar.readBlock? (c = '>') least rest).map fun (text, rest) => (.scalar (String.ofList text) false, rest)
          else
            match readLine? cs with
            | none => none
            | some (node, oneLine, rest) =>
                if endsKey rest then
                  if fresh && oneLine then
                    (readPairs? fuel column node (rest.drop 1)).map fun (pairs, rest) => (.mapping pairs, rest)
                  else none
                else continueScalar? least node rest

/-- Reads the value behind a colon or a hyphen: on the same line or on a line that is indented by
`least`, or at the column `entryAt` when it is a list. -/
def readValue? : Nat → Setting → Nat → Option Nat → List Char → Option (Yaml × List Char)
  | 0, _, _, _, _ => none
  | fuel + 1, setting, least, entryAt, cs =>
      match Gap.skip setting false .start cs with
      | none => none
      | some (gap, rest) =>
          if !gap.newLine && !rest.isEmpty then
            readBlock? fuel least (setting = .entry) (least + gap.width) rest
          else if gap.endsDocument rest then some (.nothing, cs)
          else if least ≤ gap.width || (entryAt = some gap.width && startsEntry rest) then
            readBlock? fuel least true gap.width rest
          else some (.nothing, cs)

def readPairs? : Nat → Nat → Yaml → List Char → Option (List (Yaml × Yaml) × List Char)
  | 0, _, _, _ => none
  | fuel + 1, column, key, cs =>
      match readValue? fuel .value (column + 1) (some column) cs with
      | none => none
      | some (value, cs) =>
          match Gap.skip .value false .start cs with
          | none => none
          | some (gap, rest) =>
              if gap.endsDocument rest then some ([(key, value)], cs)
              else if !gap.newLine || column < gap.width then none
              else if gap.width < column then some ([(key, value)], cs)
              else
                match readKey? rest with
                | none => none
                | some (next, rest) =>
                    (readPairs? fuel column next rest).map fun (pairs, rest) => ((key, value) :: pairs, rest)

def readEntries? : Nat → Nat → List Char → Option (List Yaml × List Char)
  | 0, _, _ => none
  | fuel + 1, column, cs =>
      match readValue? fuel .entry (column + 1) none cs with
      | none => none
      | some (item, cs) =>
          match Gap.skip .value false .start cs with
          | none => none
          | some (gap, rest) =>
              if gap.endsDocument rest then some ([item], cs)
              else if !gap.newLine || column < gap.width then none
              else if gap.width < column then some ([item], cs)
              else if startsEntry rest then
                (readEntries? fuel column (rest.drop 1)).map fun (items, rest) => (item :: items, rest)
              else some ([item], cs)

end

def plainBreaks : List Char → List Char
  | [] => []
  | '\r' :: '\n' :: rest => '\n' :: plainBreaks rest
  | '\r' :: rest => '\n' :: plainBreaks rest
  | '\u0085' :: rest => '\n' :: plainBreaks rest
  | c :: rest => c :: plainBreaks rest

def isAllowed (c : Char) : Bool :=
  c = '\t' || c = '\n' || c = '\r' || (' ' ≤ c && c ≤ '~') || c = '\u0085' ||
    ('\u00a0' ≤ c && c ≤ '\ufffd' && c ≠ '\ufeff') || 0x10000 ≤ c.toNat

def endsAll (cs : List Char) : Bool :=
  match Gap.skip .value false .start cs with
  | none => false
  | some (_, []) => true
  | some (gap, rest) =>
      gap.endsDocument rest && ['.'].isPrefixOf rest &&
        match Gap.skip .value false .start (rest.drop 3) with
        | some (_, []) => true
        | _ => false

def readDocument? (cs : List Char) : Option Yaml :=
  let fuel := 2 * cs.length + 4
  match Gap.skip .value false ⟨true, 0⟩ cs with
  | none => none
  | some (_, []) => some .nothing
  | some (gap, rest) =>
      let node :=
        if gap.width = 0 && ['-', '-', '-'].isPrefixOf rest && isDocumentMark rest then
          readValue? fuel .value 0 none (rest.drop 3)
        else readBlock? fuel 0 true gap.width rest
      match node with
      | none => none
      | some (node, rest) => if endsAll rest then some node else none

end BytecodeParity.Yaml.Parser

namespace BytecodeParity.Yaml

/-- The value of a YAML text with at most one document. A text without any stands for nothing. -/
def parse? (source : String) : Option Yaml :=
  let cs := match source.toList with
    | '\ufeff' :: rest => rest
    | cs => cs
  if cs.all Parser.isAllowed then Parser.readDocument? (Parser.plainBreaks cs) else none

end BytecodeParity.Yaml
