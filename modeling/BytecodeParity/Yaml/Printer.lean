import BytecodeParity.Text.Basic

/-!
Writing texts as YAML scalars. A text with line breaks is written as a block of lines; a text that
would read as a number, a truth value or nothing is put into single quotes, and so is one that holds
marks of the format; a text with characters that cannot be shown is put into double quotes.
-/

set_option autoImplicit false

namespace BytecodeParity.Yaml.Printer

def isPrintable (c : Char) : Bool :=
  c = '\n' || (' ' ≤ c && c ≤ '~') || ('\u00a0' ≤ c && c ≤ '\ufffd' && c ≠ '\ufeff') ||
    0x10000 ≤ c.toNat

def isSpaceOrBreak (c : Char) : Bool :=
  c = ' ' || c = '\n'

def endsWord : List Char → Bool
  | [] => true
  | c :: _ => c = ' ' || c = '\t' || c = '\n'

def holdsMark (afterSpace : Bool) : List Char → Bool
  | [] => false
  | c :: rest =>
      (c = ':' && endsWord rest) || (c = '#' && afterSpace) ||
        holdsMark (c = ' ' || c = '\t' || c = '\n') rest

def startsMark : List Char → Bool
  | [] => false
  | c :: rest =>
      ['#', ',', '[', ']', '{', '}', '&', '*', '!', '|', '>', '\x27', '\x22', '%', '@', '\x60'].contains c ||
        ((c = '?' || c = ':' || c = '-') && endsWord rest) ||
        ['-', '-', '-'].isPrefixOf (c :: rest) || ['.', '.', '.'].isPrefixOf (c :: rest)

def canBePlain (cs : List Char) : Bool :=
  !startsMark cs && !holdsMark false (cs.drop 1) && cs.all isPrintable &&
    cs.head?.all (!isSpaceOrBreak ·) && cs.getLast?.all (!isSpaceOrBreak ·)

def reservedWords : List String :=
  ["y", "yes", "n", "no", "on", "off", "true", "false", "null", "nil", "~", "nan"]

def dropSign : List Char → List Char
  | '+' :: rest => rest
  | '-' :: rest => rest
  | cs => cs

def isHexDigit (c : Char) : Bool :=
  c.isDigit || ('a' ≤ c && c ≤ 'f') || ('A' ≤ c && c ≤ 'F')

def isWhole : List Char → Bool
  | '0' :: 'x' :: rest => !rest.isEmpty && rest.all isHexDigit
  | '0' :: 'o' :: rest => !rest.isEmpty && rest.all fun c => '0' ≤ c && c ≤ '7'
  | '0' :: 'b' :: rest => !rest.isEmpty && rest.all fun c => c = '0' || c = '1'
  | cs => !cs.isEmpty && cs.all Char.isDigit

def isExponent : List Char → Bool
  | [] => true
  | c :: rest =>
      let digits := dropSign rest
      (c = 'e' || c = 'E') && !digits.isEmpty && digits.all Char.isDigit

def isDecimal (cs : List Char) : Bool :=
  let whole := cs.takeWhile Char.isDigit
  match cs.drop whole.length with
  | '.' :: rest =>
      let fraction := rest.takeWhile Char.isDigit
      !(whole.isEmpty && fraction.isEmpty) && isExponent (rest.drop fraction.length)
  | rest => !whole.isEmpty && isExponent rest

def hasNeedlessZero : List Char → Bool
  | '0' :: c :: rest => (c :: rest).all Char.isDigit
  | _ => false

def isNumber (cs : List Char) : Bool :=
  !hasNeedlessZero cs && (isWhole cs || isDecimal cs || [".inf", ".Inf", ".INF"].contains (String.ofList cs))

/-- Whether a text would read as something else than a text. What starts with a digit always counts. -/
def readsAsValue (text : String) : Bool :=
  let cs := text.toList
  cs.isEmpty || cs.head?.any Char.isDigit || reservedWords.contains (String.ofList (cs.map Char.toLower)) ||
    isNumber (dropSign cs) || [".nan", ".NaN", ".NAN"].contains text

def upperHexDigit (n : Nat) : Char :=
  if n < 10 then Char.ofNat ('0'.toNat + n) else Char.ofNat ('A'.toNat + (n - 10))

def hexDigits : Nat → Nat → List Char
  | 0, _ => []
  | count + 1, n => hexDigits count (n / 16) ++ [upperHexDigit (n % 16)]

def escapeLetter? : Char → Option Char
  | '\x00' => some '0'
  | '\x07' => some 'a'
  | '\x08' => some 'b'
  | '\t' => some 't'
  | '\n' => some 'n'
  | '\x0b' => some 'v'
  | '\x0c' => some 'f'
  | '\r' => some 'r'
  | '\x1b' => some 'e'
  | '\x22' => some '\x22'
  | '\\' => some '\\'
  | '\u0085' => some 'N'
  | '\u2028' => some 'L'
  | '\u2029' => some 'P'
  | _ => none

def escape (c : Char) : List Char :=
  match escapeLetter? c with
  | some letter => ['\\', letter]
  | none =>
      if isPrintable c then [c]
      else if c.toNat ≤ 0xff then '\\' :: 'x' :: hexDigits 2 c.toNat
      else if c.toNat ≤ 0xffff then '\\' :: 'u' :: hexDigits 4 c.toNat
      else '\\' :: 'U' :: hexDigits 8 c.toNat

def doubleQuoted (cs : List Char) : String :=
  "\"" ++ String.ofList (cs.flatMap escape) ++ "\""

def singleQuoted (cs : List Char) : String :=
  "'" ++ String.ofList (cs.flatMap fun c => if c = '\x27' then ['\x27', '\x27'] else [c]) ++ "'"

def canBeBlock (cs : List Char) : Bool :=
  cs.all isPrintable && !Text.occurs [' ', '\n'] cs && cs.getLast? ≠ some ' '

def endMark (cs : List Char) : String :=
  match cs.reverse with
  | '\n' :: rest => if rest.isEmpty || rest.head? = some '\n' then "+" else ""
  | _ => "-"

def indentLine (line : List Char) : String :=
  if line.isEmpty then "" else "  " ++ String.ofList line

def block (cs : List Char) : String :=
  let lines := Text.splitChars '\n' cs
  let lines := if cs.getLast? = some '\n' then lines.dropLast else lines
  "|" ++ (if cs.head?.any isSpaceOrBreak then "2" else "") ++ endMark cs ++
    String.join (lines.map fun line => "\n" ++ indentLine line)

end BytecodeParity.Yaml.Printer

namespace BytecodeParity.Yaml

def writeText (text : String) : String :=
  let cs := text.toList
  if cs.contains '\n' then
    if Printer.canBeBlock cs then Printer.block cs else Printer.doubleQuoted cs
  else if !cs.all Printer.isPrintable then Printer.doubleQuoted cs
  else if Printer.readsAsValue text || !Printer.canBePlain cs then Printer.singleQuoted cs
  else text

end BytecodeParity.Yaml
