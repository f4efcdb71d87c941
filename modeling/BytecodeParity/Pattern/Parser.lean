import BytecodeParity.Config
import BytecodeParity.Pattern.Bracket

/-!
Reading the text of a pattern. One pass keeps the groups that are open, the alternatives of the
innermost one and the items of its current alternative; look-around and references back to a group
are refused.
-/

set_option autoImplicit false

namespace BytecodeParity

namespace Pattern

/-- What has been read, and how deep its groups, brackets, repetitions, sequences and alternatives are
nested. An item that only set flags has no pattern, so that nothing there can be repeated. -/
structure Item where
  pattern : Option Pattern
  depth : Nat

namespace Item

def depthOf (items : List Item) : Nat :=
  let depth := (items.map (·.depth)).foldl max 0
  if items.length < 2 then depth else depth + 1

end Item

structure Group where
  outer : Flags
  alternatives : List Item
  items : List Item

namespace Group

def start (outer : Flags) : Group := ⟨outer, [], []⟩

def sequenceOf : List Pattern → Pattern
  | [] => .empty
  | [a] => a
  | a :: rest => .sequence a (sequenceOf rest)

def current (group : Group) : Item :=
  ⟨sequenceOf (group.items.reverse.filterMap (·.pattern)), Item.depthOf group.items⟩

def alternate (group : Group) : Group :=
  { group with alternatives := group.current :: group.alternatives, items := [] }

def choiceOf : List Pattern → Pattern
  | [] => .empty
  | [a] => a
  | a :: rest => .choice a (choiceOf rest)

def value (group : Group) : Item :=
  let alternatives := group.current :: group.alternatives
  ⟨choiceOf (alternatives.reverse.filterMap (·.pattern)), Item.depthOf alternatives⟩

def push (group : Group) (item : Item) : Group :=
  { group with items := item :: group.items }

def repeat? (group : Group) (min : Nat) (max : Option Nat) : Option Group :=
  match group.items with
  | ⟨some pattern, depth⟩ :: rest =>
      some { group with items := ⟨some (.repeated min max pattern), depth + 1⟩ :: rest }
  | _ => none

end Group

structure Reading where
  flags : Flags
  group : Group
  enclosing : List Group
  groupNames : List String

namespace Reading

def start : Reading := ⟨.initial, .start .initial, [], []⟩

def push (reading : Reading) (pattern : Pattern) (depth : Nat) : Reading :=
  { reading with group := reading.group.push ⟨some pattern, depth⟩ }

def repeat? (reading : Reading) (min : Nat) (max : Option Nat) : Option Reading :=
  (reading.group.repeat? min max).map fun group => { reading with group := group }

def enter (reading : Reading) (inner : Flags) : Reading :=
  { reading with
    flags := inner
    group := .start reading.flags
    enclosing := reading.group :: reading.enclosing }

def leave? (reading : Reading) : Option Reading :=
  match reading.enclosing with
  | [] => none
  | outer :: enclosing =>
      some { reading with
        flags := reading.group.outer
        group := outer.push ⟨reading.group.value.pattern, reading.group.value.depth + 1⟩
        enclosing := enclosing }

def finish? (reading : Reading) : Option Item :=
  if reading.enclosing.isEmpty then some reading.group.value else none

end Reading

namespace Parser

def literal (flags : Flags) (c : Char) : Pattern :=
  .one (flags.foldSet (.single c))

/-- Any character but a line's end. Without Unicode a dot would match a single byte. -/
def dot? (flags : Flags) : Option Pattern :=
  if !flags.unicode then none
  else if flags.dotAll then some (.one .everything)
  else if flags.returns then some (.one (.complement (.union (.single '\n') (.single '\r'))))
  else some (.one (.complement (.single '\n')))

def startMark (flags : Flags) : Pattern :=
  .assert (if flags.multiLine then .lineStart flags.returns else .textStart)

def endMark (flags : Flags) : Pattern :=
  .assert (if flags.multiLine then .lineEnd flags.returns else .textEnd)

def ofEscaped (flags : Flags) : Escaped → Pattern
  | .literal c => literal flags c
  | .set set => .one set
  | .assertion assertion => .assert assertion

def skipGreed : List Char → List Char
  | '?' :: rest => rest
  | cs => cs

def skipGreedBehind (flags : Flags) (cs : List Char) : List Char :=
  match flags.skip cs with
  | '?' :: rest => rest
  | _ => cs

def count? (flags : Flags) (cs : List Char) : Option (Nat × List Char) :=
  let (digits, rest) := flags.collect Char.isDigit false (Text.dropBlanks cs)
  let count := digits.foldl (fun n c => 10 * n + (c.toNat - '0'.toNat)) 0
  if digits.isEmpty || UInt32.size ≤ count then none
  else
    match Text.dropBlanks rest with
    | [] => none
    | rest => some (count, rest)

def closeBounds? (flags : Flags) (min : Nat) (max : Option Nat) :
    List Char → Option ((Nat × Option Nat) × List Char)
  | '}' :: rest => if max.all (min ≤ ·) then some ((min, max), skipGreedBehind flags rest) else none
  | _ => none

def greaterBound? (flags : Flags) (min : Nat) : List Char → Option ((Nat × Option Nat) × List Char)
  | '}' :: rest => closeBounds? flags min none ('}' :: rest)
  | cs => (count? flags cs).bind fun (max, rest) => closeBounds? flags min (some max) rest

def upperBound? (flags : Flags) (min : Nat) : List Char → Option ((Nat × Option Nat) × List Char)
  | ',' :: rest => greaterBound? flags min (flags.skip rest)
  | cs => closeBounds? flags min (some min) cs

def bounds? (flags : Flags) (cs : List Char) : Option ((Nat × Option Nat) × List Char) :=
  (count? flags (flags.skip cs)).bind fun (min, rest) => upperBound? flags min rest

def isNameStart (c : Char) : Bool :=
  c = '_' || Text.isAlphabetic c

def isNamePart (c : Char) : Bool :=
  c = '_' || c = '.' || c = '[' || c = ']' || Text.isAlphabetic c || Text.isNumeric c

def openNamed? (reading : Reading) (name : List Char) : Option Reading :=
  let text := String.ofList name
  if name.head?.any isNameStart && name.all isNamePart && !reading.groupNames.contains text then
    some { reading.enter reading.flags with groupNames := text :: reading.groupNames }
  else none

def named? (reading : Reading) (cs : List Char) : Option (Reading × List Char) :=
  match Text.cutAt ['>'] cs with
  | none => none
  | some (name, rest) => (openNamed? reading name).map fun reading => (reading, rest)

def setFlags? (reading : Reading) (draft : Flags.Draft) (mark : Char) : Option Reading :=
  if mark = ':' then some (reading.enter draft.flags)
  else if draft.seen.isEmpty then none
  else some { reading with flags := draft.flags, group := reading.group.push ⟨none, 0⟩ }

def flagged? (reading : Reading) (cs : List Char) : Option (Reading × List Char) :=
  match Flags.read ⟨reading.flags, [], false, false⟩ cs with
  | none => none
  | some ((draft, mark), rest) => (setFlags? reading draft mark).map fun reading => (reading, rest)

def lettered? (reading : Reading) : List Char → Option (Reading × List Char)
  | 'P' :: '<' :: rest => named? reading rest
  | cs => flagged? reading cs

/-- Opens a group that says more than that it is one, or sets flags for the rest of the current group,
after the question mark. The marks of look-around start neither a name nor flags. -/
def special? (reading : Reading) : List Char → Option (Reading × List Char)
  | '<' :: rest => named? reading rest
  | cs => lettered? reading cs

def group? (reading : Reading) (cs : List Char) : Option (Reading × List Char) :=
  match reading.flags.skip cs with
  | '?' :: rest => special? reading rest
  | _ => some (reading.enter reading.flags, cs)

def step? (reading : Reading) : List Char → Option (Reading × List Char)
  | [] => none
  | c :: rest =>
      let flags := reading.flags
      match c with
      | '(' => group? reading rest
      | ')' => reading.leave?.map fun reading => (reading, rest)
      | '|' => some ({ reading with group := reading.group.alternate }, rest)
      | '[' => (Bracket.read? flags rest).map fun (value, rest) => (reading.push (.one value.set) value.depth, rest)
      | '?' => (reading.repeat? 0 (some 1)).map fun reading => (reading, skipGreed rest)
      | '*' => (reading.repeat? 0 none).map fun reading => (reading, skipGreed rest)
      | '+' => (reading.repeat? 1 none).map fun reading => (reading, skipGreed rest)
      | '{' =>
          (bounds? flags rest).bind fun ((min, max), rest) =>
            (reading.repeat? min max).map fun reading => (reading, rest)
      | '\\' => (Escape.read? flags rest).map fun (escaped, rest) => (reading.push (ofEscaped flags escaped) 0, rest)
      | '.' => (dot? flags).map fun pattern => (reading.push pattern 0, rest)
      | '^' => some (reading.push (startMark flags) 0, rest)
      | '$' => some (reading.push (endMark flags) 0, rest)
      | c => some (reading.push (literal flags c) 0, rest)

def read? : Nat → Reading → List Char → Option Item
  | 0, _, _ => none
  | fuel + 1, reading, cs =>
      match reading.flags.skip cs with
      | [] => reading.finish?
      | cs =>
          match step? reading cs with
          | none => none
          | some (reading, rest) => read? fuel reading rest

end Parser

def depthLimit : Nat := 250

def sizeLimit : Nat := 10485760

inductive Fault where
  | malformed
  | tooDeep
  | tooLarge
deriving DecidableEq, Repr

def Fault.message : Fault → String
  | .malformed => "regex parse error:"
  | .tooDeep => "exceeded the maximum number of nested parentheses/brackets (250)"
  | .tooLarge => "Compiled regex exceeds size limit of 10485760 bytes."

def parse (source : String) : Except Fault Pattern :=
  let cs := source.toList
  match Parser.read? (cs.length + 1) .start cs with
  | some ⟨some pattern, depth⟩ =>
      if depthLimit < depth then .error .tooDeep
      else if sizeLimit < pattern.size then .error .tooLarge
      else .ok pattern
  | _ => .error .malformed

/-- The built-in library. Of the Unicode classes it knows the general categories, but no scripts and no
properties that are true or false of a character; what a compiled pattern takes is an estimate. -/
def library : ExpressionLibrary where
  compile := fun source =>
    match parse source with
    | .ok pattern => .ok ⟨pattern.matchesIn⟩
    | .error fault => .error fault.message

end Pattern

def Config.patterns (config : Config) : Except BadPattern NamePatterns :=
  config.patternsBy Pattern.library

end BytecodeParity
