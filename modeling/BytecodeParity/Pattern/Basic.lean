import BytecodeParity.Pattern.CharSet

/-!
Patterns over text and what they match. A pattern is matched from a place in a text, with the
characters before the place in view, and ends at a set of places; which of several ends a search
would prefer does not matter here, only whether there is one.
-/

set_option autoImplicit false

namespace BytecodeParity

inductive Assertion where
  | textStart
  | textEnd
  /-- The start of a line; with `returns` a carriage return ends a line too. -/
  | lineStart (returns : Bool)
  | lineEnd (returns : Bool)
  | wordBoundary (inside : CharSet)
  | noWordBoundary (inside : CharSet)
  | wordStart (inside : CharSet)
  | wordEnd (inside : CharSet)
  | wordStartHalf (inside : CharSet)
  | wordEndHalf (inside : CharSet)

inductive Pattern where
  | empty
  | one (set : CharSet)
  | assert (assertion : Assertion)
  | sequence (first second : Pattern)
  | choice (first second : Pattern)
  | repeated (min : Nat) (max : Option Nat) (pattern : Pattern)

structure Place where
  before : List Char
  after : List Char
deriving DecidableEq, Repr

namespace Place

def start (text : List Char) : Place := ⟨[], text⟩

def onward (before : List Char) : List Char → List Place
  | [] => [⟨before, []⟩]
  | c :: after => ⟨before, c :: after⟩ :: onward (c :: before) after

def advance (set : CharSet) : Place → List Place
  | ⟨_, []⟩ => []
  | ⟨before, c :: after⟩ => if set.contains c then [⟨c :: before, after⟩] else []

end Place

namespace Assertion

def headIn (set : CharSet) : List Char → Bool
  | [] => false
  | c :: _ => set.contains c

def holds : Assertion → Place → Bool
  | .textStart, place => place.before.isEmpty
  | .textEnd, place => place.after.isEmpty
  | .lineStart returns, place =>
      match place.before with
      | [] => true
      | '\n' :: _ => true
      | '\r' :: _ => returns && place.after.head? ≠ some '\n'
      | _ => false
  | .lineEnd returns, place =>
      match place.after with
      | [] => true
      | '\n' :: _ => !returns || place.before.head? ≠ some '\r'
      | '\r' :: _ => returns
      | _ => false
  | .wordBoundary inside, place => headIn inside place.before != headIn inside place.after
  | .noWordBoundary inside, place => headIn inside place.before == headIn inside place.after
  | .wordStart inside, place => !headIn inside place.before && headIn inside place.after
  | .wordEnd inside, place => headIn inside place.before && !headIn inside place.after
  | .wordStartHalf inside, place => !headIn inside place.before
  | .wordEndHalf inside, place => !headIn inside place.after

end Assertion

namespace Pattern

def stepAll (step : Place → List Place) (places : List Place) : List Place :=
  (places.flatMap step).eraseDups

def exactly (step : Place → List Place) : Nat → List Place → List Place
  | 0, places => places
  | count + 1, places => if places.isEmpty then [] else exactly step count (stepAll step places)

def atMost (step : Place → List Place) : Nat → List Place → List Place
  | 0, places => places
  | count + 1, places =>
      if places.isEmpty then [] else (places ++ atMost step count (stepAll step places)).eraseDups

/-- The steps beyond the least number that can lead to a new end: a step that consumes nothing leads
nowhere new. -/
def extraSteps (min : Nat) (max : Option Nat) (place : Place) : Nat :=
  match max with
  | none => place.after.length
  | some max => Nat.min (max - min) place.after.length

/-- The places at which a match that starts at the given place can end. -/
def ends : Pattern → Place → List Place
  | .empty, place => [place]
  | .one set, place => place.advance set
  | .assert assertion, place => if assertion.holds place then [place] else []
  | .sequence first second, place => stepAll second.ends (first.ends place)
  | .choice first second, place => (first.ends place ++ second.ends place).eraseDups
  | .repeated min max pattern, place =>
      atMost pattern.ends (extraSteps min max place) (exactly pattern.ends min [place])

def matchesIn (pattern : Pattern) (text : String) : Bool :=
  (Place.onward [] text.toList).any fun place => !(pattern.ends place).isEmpty

/-- An estimate of the bytes that a compiled pattern takes, with every repetition written out. -/
def size : Pattern → Nat
  | .empty => 32
  | .one set => set.weight
  | .assert _ => 32
  | .sequence first second | .choice first second => first.size + second.size
  | .repeated min max pattern => (max.getD (min + 1)) * pattern.size + 32

end Pattern

end BytecodeParity
