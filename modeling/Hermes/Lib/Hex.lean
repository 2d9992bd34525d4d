import Mathlib.Tactic

/-!
# Hexadecimal text

Two lower-case digits for each byte. Upper-case digits and blanks between the bytes are read too.

* `decode_encode`: decoding what was encoded gives the bytes back, so that no two lists of bytes
  have one text (`encode_injective`).
* `isSome_value_of_mem`: an encoded text has nothing but digits.
-/

namespace Hex

/-- The digit of four bits. -/
def digit (n : ℕ) : Char := "0123456789abcdef".toList.getD n '0'

/-- The four bits of a digit. -/
def value (c : Char) : Option ℕ :=
  if 48 ≤ c.toNat ∧ c.toNat ≤ 57 then some (c.toNat - 48)
  else if 97 ≤ c.toNat ∧ c.toNat ≤ 102 then some (c.toNat - 87)
  else if 65 ≤ c.toNat ∧ c.toNat ≤ 70 then some (c.toNat - 55)
  else none

/-- A blank of ASCII. -/
def blank (c : Char) : Bool := c.toNat = 32 ∨ 9 ≤ c.toNat ∧ c.toNat ≤ 13

def encode : List UInt8 → List Char
  | [] => []
  | b :: bytes => digit (b.toNat / 16) :: digit (b.toNat % 16) :: encode bytes

/-- The bytes of a text. The two digits of a byte stand next to each other. -/
def decode : List Char → Option (List UInt8)
  | [] => some []
  | [a] => if blank a then some [] else none
  | a :: b :: text =>
    if blank a then decode (b :: text)
    else match value a, value b with
      | some x, some y => (decode text).map fun bytes => UInt8.ofNat (16 * x + y) :: bytes
      | _, _ => none

theorem value_digit : ∀ n < 16, value (digit n) = some n := by decide

theorem blank_digit : ∀ n < 16, blank (digit n) = false := by decide

/-- **Decoding undoes encoding.** -/
theorem decode_encode (bytes : List UInt8) : decode (encode bytes) = some bytes := by
  induction bytes with
  | nil => rfl
  | cons b bytes ih =>
    have hb := b.toNat_lt
    have hhigh : b.toNat / 16 < 16 := by omega
    have hlow : b.toNat % 16 < 16 := by omega
    have hjoin : 16 * (b.toNat / 16) + b.toNat % 16 = b.toNat := by omega
    unfold encode decode
    simp only [blank_digit _ hhigh, value_digit _ hhigh, value_digit _ hlow, ih, hjoin,
      UInt8.ofNat_toNat]
    rfl

theorem encode_injective : Function.Injective encode := by
  intro a b h
  have ha := decode_encode a
  rw [h, decode_encode] at ha
  exact (Option.some.inj ha).symm

theorem isSome_value_of_mem {bytes : List UInt8} {c : Char} (h : c ∈ encode bytes) :
    (value c).isSome := by
  induction bytes with
  | nil => cases h
  | cons b bytes ih =>
    have hb := b.toNat_lt
    rcases List.mem_cons.1 h with rfl | h
    · rw [value_digit _ (by omega)]
      rfl
    rcases List.mem_cons.1 h with rfl | h
    · rw [value_digit _ (by omega)]
      rfl
    · exact ih h

/-- Digits are ASCII. -/
theorem toNat_lt_of_isSome {c : Char} (h : (value c).isSome) : c.toNat < 128 := by
  unfold value at h
  split at h
  · omega
  · split at h
    · omega
    · split at h
      · omega
      · cases h

end Hex
