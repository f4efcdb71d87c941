import BytecodeParity.Pattern.Escape

/-!
Bracketed classes in the text of a pattern: characters, ranges, escapes, named classes and further
brackets, joined by intersection, difference and symmetric difference from left to right.
-/

set_option autoImplicit false

namespace BytecodeParity.Pattern.Bracket

inductive Operation where
  | intersection
  | difference
  | symmetricDifference
deriving DecidableEq, Repr

def Operation.apply (flags : Flags) (operation : Operation) (a b : CharSet) : CharSet :=
  let a := flags.foldSet a
  let b := flags.foldSet b
  match operation with
  | .intersection => .intersection a b
  | .difference => CharSet.difference a b
  | .symmetricDifference => CharSet.symmetricDifference a b

structure Nested where
  set : CharSet
  depth : Nat

structure Level where
  negated : Bool
  left : Option (Nested × Operation)
  members : List Nested

namespace Level

def add (level : Level) (set : CharSet) : Level :=
  { level with members := level.members ++ [⟨set, 0⟩] }

def right (level : Level) : Nested :=
  let depth := (level.members.map (·.depth)).foldl max 0
  ⟨CharSet.unions (level.members.map (·.set)), if level.members.length < 2 then depth else depth + 1⟩

def value (flags : Flags) (level : Level) : Nested :=
  match level.left with
  | none => level.right
  | some (left, operation) =>
      ⟨operation.apply flags left.set level.right.set, max left.depth level.right.depth + 1⟩

def operate (flags : Flags) (level : Level) (operation : Operation) : Level :=
  { level with left := some (level.value flags, operation), members := [] }

def close? (flags : Flags) (level : Level) : Option Nested :=
  let value := level.value flags
  if level.negated && !flags.unicode then none
  else some ⟨.complementIf level.negated (flags.foldSet value.set), value.depth + 1⟩

end Level

def takeFirst (flags : Flags) (level : Level) : List Char → Level × List Char
  | ']' :: rest => (level.add (.single ']'), rest)
  | cs =>
      let (hyphens, rest) := flags.collect (· = '-') false cs
      (if hyphens.isEmpty then level else level.add (.single '-'), rest)

def start (flags : Flags) : List Char → Level × List Char
  | '^' :: rest => takeFirst flags ⟨true, none, []⟩ (flags.skip rest)
  | cs => takeFirst flags ⟨false, none, []⟩ cs

def namedSet? (flags : Flags) (negated : Bool) (set : CharSet) : Option CharSet :=
  if negated && !flags.unicode then none else some (.complementIf negated (flags.foldSet set))

def nameTo? (flags : Flags) (negated : Bool) (cs : List Char) : Option (Option CharSet × List Char) :=
  match Text.cutAt [':'] cs with
  | some (name, ']' :: rest) =>
      (CharSet.ofClassName? (String.ofList name)).map fun set => (namedSet? flags negated set, rest)
  | _ => none

def named? (flags : Flags) : List Char → Option (Option CharSet × List Char)
  | ':' :: '^' :: cs => nameTo? flags true cs
  | ':' :: cs => nameTo? flags false cs
  | _ => none

def readItem? (flags : Flags) : List Char → Option (Escaped × List Char)
  | [] => none
  | '\\' :: rest => Escape.read? flags rest
  | c :: rest => some (.literal c, rest)

/-- Without Unicode a class holds bytes, and a character beyond ASCII is none. -/
def allows (flags : Flags) (c : Char) : Bool :=
  flags.unicode || c.toNat < 0x80

def member? (flags : Flags) : Escaped → Option CharSet
  | .literal c => if allows flags c then some (.single c) else none
  | .set set => some set
  | .assertion _ => none

def range? (flags : Flags) : Escaped → Escaped → Option CharSet
  | .literal low, .literal high => if low ≤ high && allows flags high then some (.range low high) else none
  | _, _ => none

def rangeTo? (flags : Flags) (low : Escaped) (cs : List Char) : Option (CharSet × List Char) := do
  let (high, rest) ← readItem? flags cs
  return (← range? flags low high, rest)

/-- Whether a hyphen before the text stands for itself, or for a difference: at the end of the class or before
another hyphen. -/
def leavesHyphen : List Char → Bool
  | ']' :: _ => true
  | '-' :: _ => true
  | _ => false

def readRange? (flags : Flags) (low : Escaped) (cs : List Char) : Option (CharSet × List Char) :=
  match flags.skip cs with
  | [] => none
  | c :: rest =>
      if c = '-' && !leavesHyphen (flags.skip rest) then rangeTo? flags low (flags.skip rest)
      else (member? flags low).map fun set => (set, c :: rest)

def readMember? (flags : Flags) (cs : List Char) : Option (CharSet × List Char) := do
  let (low, rest) ← readItem? flags cs
  readRange? flags low rest

def operation? : List Char → Option (Operation × List Char)
  | '&' :: '&' :: rest => some (.intersection, rest)
  | '-' :: '-' :: rest => some (.difference, rest)
  | '~' :: '~' :: rest => some (.symmetricDifference, rest)
  | _ => none

inductive Advance where
  | closed (value : Nested)
  | inside (level : Level) (enclosing : List Level)

def step? (flags : Flags) (level : Level) (enclosing : List Level) : List Char → Option (Advance × List Char)
  | [] => none
  | '[' :: rest =>
      match named? flags rest with
      | some (set?, rest) => set?.map fun set => (.inside (level.add set) enclosing, rest)
      | none =>
          let (inner, rest) := start flags (flags.skip rest)
          some (.inside inner (level :: enclosing), rest)
  | ']' :: rest =>
      match level.close? flags, enclosing with
      | none, _ => none
      | some value, [] => some (.closed value, rest)
      | some value, outer :: enclosing =>
          some (.inside { outer with members := outer.members ++ [value] } enclosing, rest)
  | cs =>
      match operation? cs with
      | some (operation, rest) => some (.inside (level.operate flags operation) enclosing, rest)
      | none => (readMember? flags cs).map fun (set, rest) => (.inside (level.add set) enclosing, rest)

def readLevels? (flags : Flags) : Nat → Level → List Level → List Char → Option (Nested × List Char)
  | 0, _, _, _ => none
  | fuel + 1, level, enclosing, cs =>
      match step? flags level enclosing (flags.skip cs) with
      | none => none
      | some (.closed value, rest) => some (value, rest)
      | some (.inside level enclosing, rest) => readLevels? flags fuel level enclosing rest

def read? (flags : Flags) (cs : List Char) : Option (Nested × List Char) :=
  let (level, rest) := start flags (flags.skip cs)
  readLevels? flags (rest.length + 1) level [] rest

end BytecodeParity.Pattern.Bracket
