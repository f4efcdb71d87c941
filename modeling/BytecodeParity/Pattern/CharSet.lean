import BytecodeParity.Text.Basic
import BytecodeParity.Text.CaseFold

set_option autoImplicit false

namespace BytecodeParity

inductive CharSet where
  | nothing
  | everything
  | range (low high : Char)
  | digit
  | word
  | blank
  | category (category : Text.Category)
  | union (a b : CharSet)
  | intersection (a b : CharSet)
  | complement (a : CharSet)
  | anyCase (a : CharSet)
  | asciiCase (a : CharSet)

namespace CharSet

def contains : CharSet → Char → Bool
  | .nothing, _ => false
  | .everything, _ => true
  | .range low high, c => low ≤ c && c ≤ high
  | .digit, c => Text.isDigit c
  | .word, c => Text.isWordChar c
  | .blank, c => Text.isBlank c
  | .category kind, c => Text.Category.ofChar c = kind
  | .union a b, c => a.contains c || b.contains c
  | .intersection a b, c => a.contains c && b.contains c
  | .complement a, c => !a.contains c
  | .anyCase a, c => (Text.caseVariants c).any fun variant => a.contains variant
  | .asciiCase a, c => a.contains c || (c.isAlpha && (a.contains c.toLower || a.contains c.toUpper))

def weight : CharSet → Nat
  | .nothing => 32
  | .everything => 400
  | .range _ high => if high.toNat < 0x80 then 32 else 160
  | .digit => 4000
  | .word => 50000
  | .blank => 600
  | .category _ => 8000
  | .union a b | .intersection a b => a.weight + b.weight
  | .complement a => a.weight + 400
  | .anyCase a | .asciiCase a => 2 * a.weight

def single (c : Char) : CharSet :=
  .range c c

def difference (a b : CharSet) : CharSet :=
  .intersection a (.complement b)

def symmetricDifference (a b : CharSet) : CharSet :=
  .union (difference a b) (difference b a)

def unions : List CharSet → CharSet
  | [] => .nothing
  | [a] => a
  | a :: rest => .union a (unions rest)

def complementIf (negated : Bool) (a : CharSet) : CharSet :=
  if negated then .complement a else a

end CharSet

end BytecodeParity
