import Mathlib.Data.String.Basic
import Mathlib.Tactic.SplitIfs

set_option autoImplicit false

namespace BytecodeParity.Text

def bytes (s : String) : List UInt8 :=
  s.toByteArray.data.toList

theorem bytes_eq (s : String) : bytes s = s.toList.flatMap String.utf8EncodeChar := by
  rw [bytes, ← String.ofList_toList (s := s), String.toByteArray_ofList]
  simp [List.utf8Encode]

def following (n : Nat) : Nat :=
  if n ≤ 0x7f then 0 else if n ≤ 0x7ff then 1 else if n ≤ 0xffff then 2 else 3

def lengthMark : Nat → Nat
  | 0 => 0
  | 1 => 0xc0
  | 2 => 0xe0
  | _ => 0xf0

def firstByte (n : Nat) : Nat :=
  n / 64 ^ following n + lengthMark (following n)

def lastBytes : Nat → Nat → List UInt8
  | 0, _ => []
  | count + 1, n => lastBytes count (n / 64) ++ [UInt8.ofNat (n % 64 + 0x80)]

theorem char_number_bound (c : Char) : c.val.toNat < 0x110000 := by
  rcases c.valid with low | high
  · exact Nat.lt_trans low (by decide)
  · exact high.2

theorem encoded_char (c : Char) :
    String.utf8EncodeChar c =
      UInt8.ofNat (firstByte c.val.toNat) :: lastBytes (following c.val.toNat) c.val.toNat := by
  have bound := char_number_bound c
  rw [String.utf8EncodeChar]
  generalize c.val.toNat = n at bound
  by_cases one : n ≤ 0x7f
  · simp [firstByte, following, lengthMark, lastBytes, one]
  · by_cases two : n ≤ 0x7ff
    · have leading : n / 64 % 32 = n / 64 := by omega
      simp [firstByte, following, lengthMark, lastBytes, one, two, leading]
    · by_cases three : n ≤ 0xffff
      · have leading : n / 4096 % 16 = n / 4096 := by omega
        simp [firstByte, following, lengthMark, lastBytes, one, two, three, leading]
      · have leading : n / 262144 % 8 = n / 262144 := by omega
        simp [firstByte, following, lengthMark, lastBytes, one, two, three, leading, Nat.div_div_eq_div_mul]

theorem byte_cons_lt (a b : Nat) (boundA : a < 256) (boundB : b < 256) (after behind : List UInt8)
    (order : a < b ∨ a = b ∧ after < behind) : UInt8.ofNat a :: after < UInt8.ofNat b :: behind := by
  rw [List.cons_lt_cons_iff, UInt8.lt_iff_toNat_lt, UInt8.toNat_ofNat_of_lt' boundA, UInt8.toNat_ofNat_of_lt' boundB]
  rcases order with less | ⟨rfl, rest⟩
  · exact .inl less
  · exact .inr ⟨rfl, rest⟩

-- Six bits are compared when all bits before them agree.
theorem last_bytes_lt (count n m : Nat) (leading : n / 64 ^ count = m / 64 ^ count) (less : n < m)
    (after behind : List UInt8) : lastBytes count n ++ after < lastBytes count m ++ behind := by
  induction count generalizing n m after behind with
  | zero =>
      rw [Nat.pow_zero, Nat.div_one, Nat.div_one] at leading
      omega
  | succ count ih =>
      rw [Nat.pow_succ', ← Nat.div_div_eq_div_mul, ← Nat.div_div_eq_div_mul] at leading
      rw [lastBytes, lastBytes, List.append_assoc, List.append_assoc]
      rcases Nat.lt_or_eq_of_le (Nat.div_le_div_right (c := 64) (Nat.le_of_lt less)) with earlier | same
      · exact ih _ _ leading earlier _ _
      · rw [same]
        exact List.append_left_lt (byte_cons_lt _ _ (by omega) (by omega) _ _ (.inl (by omega)))

-- Encodings of different lengths differ in their first bytes.
theorem first_byte_order (n m : Nat) (bound : m < 0x110000) (less : n < m) :
    firstByte n < firstByte m ∨
      firstByte n = firstByte m ∧ following n = following m ∧ n / 64 ^ following n = m / 64 ^ following n := by
  simp only [firstByte, following]
  split_ifs <;> simp only [lengthMark, Nat.reducePow, true_and] <;> omega

theorem first_byte_bound (n : Nat) (bound : n < 0x110000) : firstByte n < 256 := by
  simp only [firstByte, following]
  split_ifs <;> simp only [lengthMark, Nat.reducePow] <;> omega

theorem encoded_char_lt (c d : Char) (less : c < d) (after behind : List UInt8) :
    String.utf8EncodeChar c ++ after < String.utf8EncodeChar d ++ behind := by
  have boundC := char_number_bound c
  have boundD := char_number_bound d
  rw [encoded_char, encoded_char, List.cons_append, List.cons_append]
  refine byte_cons_lt _ _ (first_byte_bound _ boundC) (first_byte_bound _ boundD) _ _ ?_
  rcases first_byte_order _ _ boundD less with earlier | ⟨same, length, leading⟩
  · exact .inl earlier
  · exact .inr ⟨same, length ▸ last_bytes_lt _ _ _ leading less _ _⟩

theorem encoded_chars_lt (cs ds : List Char) (less : cs < ds) :
    cs.flatMap String.utf8EncodeChar < ds.flatMap String.utf8EncodeChar := by
  induction cs generalizing ds with
  | nil =>
      cases ds with
      | nil => cases less
      | cons d ds =>
          rw [List.flatMap_nil, List.flatMap_cons, encoded_char]
          exact List.nil_lt_cons _ _
  | cons c cs ih =>
      cases ds with
      | nil => cases less
      | cons d ds =>
          rw [List.flatMap_cons, List.flatMap_cons]
          rcases List.cons_lt_cons_iff.mp less with earlier | ⟨rfl, rest⟩
          · exact encoded_char_lt c d earlier _ _
          · exact List.append_left_lt (ih ds rest)

theorem bytes_lt_iff (s t : String) : bytes s < bytes t ↔ s < t := by
  have forward : ∀ s t : String, s < t → bytes s < bytes t := fun s t less => by
    rw [bytes_eq, bytes_eq]
    exact encoded_chars_lt _ _ less
  refine ⟨fun less => ?_, forward s t⟩
  rcases lt_trichotomy s t with before | rfl | after
  · exact before
  · exact absurd less (List.lt_irrefl _)
  · exact absurd less (List.lt_asymm (forward t s after))

end BytecodeParity.Text
