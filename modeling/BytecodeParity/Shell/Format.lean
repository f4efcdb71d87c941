set_option autoImplicit false

namespace BytecodeParity.Shell.Format

def ofChar (c : Char) : ByteArray :=
  (String.ofList [c]).toUTF8

def ofByte (n : Nat) : ByteArray :=
  ⟨#[n.toUInt8]⟩

def control? : Char → Option Nat
  | 'a' => some 7
  | 'b' => some 8
  | 'f' => some 12
  | 'n' => some 10
  | 'r' => some 13
  | 't' => some 9
  | 'v' => some 11
  | '\\' => some 92
  | _ => none

def isOctal (c : Char) : Bool :=
  '0' ≤ c && c ≤ '7'

def readOctal (count : Nat) (cs : List Char) : ByteArray × List Char :=
  let digits := (cs.take count).takeWhile isOctal
  (ofByte ((digits.foldl (fun n c => 8 * n + (c.toNat - '0'.toNat)) 0) % 256), cs.drop digits.length)

def expandEscapes : Nat → List Char → ByteArray × Bool
  | 0, _ => (.empty, false)
  | _ + 1, [] => (.empty, false)
  | fuel + 1, c :: rest =>
      let continueWith (bytes : ByteArray) (rest : List Char) : ByteArray × Bool :=
        let (more, ended) := expandEscapes fuel rest
        (bytes ++ more, ended)
      match c, rest with
      | '\\', 'c' :: _ => (.empty, true)
      | '\\', '0' :: rest =>
          let (bytes, rest) := readOctal 3 rest
          continueWith bytes rest
      | '\\', next :: after =>
          match control? next with
          | some byte => continueWith (ofByte byte) after
          | none => continueWith (ofChar '\\') rest
      | c, rest => continueWith (ofChar c) rest

def escaped (text : String) : ByteArray × Bool :=
  expandEscapes (text.toList.length + 1) text.toList

def writeOnce : Nat → List Char → List String → ByteArray × List String
  | 0, _, arguments => (.empty, arguments)
  | _ + 1, [], arguments => (.empty, arguments)
  | fuel + 1, c :: rest, arguments =>
      let continueWith (bytes : ByteArray) (rest : List Char) (arguments : List String) :
          ByteArray × List String :=
        let (more, arguments) := writeOnce fuel rest arguments
        (bytes ++ more, arguments)
      let argument := arguments.headD ""
      match c, rest with
      | '\\', next :: after =>
          if isOctal next then
            let (bytes, rest) := readOctal 3 rest
            continueWith bytes rest arguments
          else if next = '\x22' then continueWith (ofChar next) after arguments
          else
            match control? next with
            | some byte => continueWith (ofByte byte) after arguments
            | none => continueWith (ofChar '\\') rest arguments
      | '%', '%' :: rest => continueWith (ofChar '%') rest arguments
      | '%', 's' :: rest => continueWith argument.toUTF8 rest (arguments.drop 1)
      | '%', 'b' :: rest => continueWith (escaped argument).1 rest (arguments.drop 1)
      | '%', 'c' :: rest => continueWith (String.ofList (argument.toList.take 1)).toUTF8 rest (arguments.drop 1)
      | '%', 'd' :: rest => continueWith (toString (argument.toInt?.getD 0)).toUTF8 rest (arguments.drop 1)
      | '%', 'i' :: rest => continueWith (toString (argument.toInt?.getD 0)).toUTF8 rest (arguments.drop 1)
      | c, rest => continueWith (ofChar c) rest arguments

def write : Nat → List Char → List String → ByteArray
  | 0, _, _ => .empty
  | fuel + 1, format, arguments =>
      let (bytes, left) := writeOnce (format.length + 1) format arguments
      if left.isEmpty || left.length = arguments.length then bytes else bytes ++ write fuel format left

def format (text : String) (arguments : List String) : ByteArray :=
  write (arguments.length + 1) text.toList arguments

end BytecodeParity.Shell.Format
