/-!
Reading bytes as UTF-8 without failing: every longest run of bytes that could have begun a character
but did not finish one is replaced by the replacement character, and so is every other stray byte.
-/

set_option autoImplicit false

namespace BytecodeParity.Text

def replacement : Char := '\ufffd'

def continuation? (first : Nat) : Option (Nat × Nat × Nat) :=
  if 0xc2 ≤ first && first ≤ 0xdf then some (1, 0x80, 0xbf)
  else if first = 0xe0 then some (2, 0xa0, 0xbf)
  else if first = 0xed then some (2, 0x80, 0x9f)
  else if 0xe1 ≤ first && first ≤ 0xef then some (2, 0x80, 0xbf)
  else if first = 0xf0 then some (3, 0x90, 0xbf)
  else if 0xf1 ≤ first && first ≤ 0xf3 then some (3, 0x80, 0xbf)
  else if first = 0xf4 then some (3, 0x80, 0x8f)
  else none

def leadBits (first count : Nat) : Nat :=
  if count = 1 then first % 0x20 else if count = 2 then first % 0x10 else first % 0x08

structure Begun where
  value : Nat
  missing : Nat
  low : Nat
  high : Nat

def decodeFrom : Option Begun → List UInt8 → List Char
  | none, [] => []
  | some _, [] => [replacement]
  | begun, byte :: rest =>
      let first (n : Nat) : List Char :=
        if n < 0x80 then Char.ofNat n :: decodeFrom none rest
        else
          match continuation? n with
          | some (count, low, high) => decodeFrom (some ⟨leadBits n count, count, low, high⟩) rest
          | none => replacement :: decodeFrom none rest
      let n := byte.toNat
      match begun with
      | none => first n
      | some begun =>
          if begun.low ≤ n && n ≤ begun.high then
            let value := begun.value * 0x40 + n % 0x40
            if begun.missing = 1 then Char.ofNat value :: decodeFrom none rest
            else decodeFrom (some ⟨value, begun.missing - 1, 0x80, 0xbf⟩) rest
          else replacement :: first n

def decode (bytes : ByteArray) : String :=
  String.ofList (decodeFrom none bytes.toList)

end BytecodeParity.Text
