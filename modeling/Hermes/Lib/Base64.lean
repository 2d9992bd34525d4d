import Mathlib.Tactic

/-!
# Base64

The standard alphabet with padding, over lists of bytes.

* `decode_encode`: decoding what was encoded gives the bytes back.
* `ofAscii_toAscii`: encoded text survives the way through its ASCII bytes.
-/

namespace Base64

def alphabet : List Char :=
  "ABCDEFGHIJKLMNOPQRSTUVWXYZabcdefghijklmnopqrstuvwxyz0123456789+/".toList

/-- The character of six bits. -/
def char (n : ℕ) : Char := alphabet.getD n '='

/-- The six bits of a character. -/
def index (c : Char) : ℕ := alphabet.idxOf c

/-- Three bytes become four characters, the rest is padded. -/
def encode : List UInt8 → List Char
  | [] => []
  | [a] => [char (a.toNat / 4), char (a.toNat % 4 * 16), '=', '=']
  | [a, b] =>
    [char (a.toNat / 4), char (a.toNat % 4 * 16 + b.toNat / 16), char (b.toNat % 16 * 4), '=']
  | a :: b :: c :: rest =>
    char (a.toNat / 4) :: char (a.toNat % 4 * 16 + b.toNat / 16) ::
      char (b.toNat % 16 * 4 + c.toNat / 64) :: char (c.toNat % 64) :: encode rest

/-- The bytes of padded text. -/
def decode : List Char → List UInt8
  | a :: b :: c :: d :: rest =>
    let first := UInt8.ofNat (index a * 4 + index b / 16)
    let second := UInt8.ofNat (index b % 16 * 16 + index c / 4)
    let third := UInt8.ofNat (index c % 4 * 64 + index d)
    if c = '=' then [first]
    else if d = '=' then [first, second]
    else first :: second :: third :: decode rest
  | _ => []

theorem index_char : ∀ n < 64, index (char n) = n := by decide +kernel

theorem char_ne_pad : ∀ n < 64, char n ≠ '=' := by decide +kernel

theorem char_lt : ∀ n < 64, (char n).toNat < 128 := by decide +kernel

/-- **Decoding undoes encoding.** -/
theorem decode_encode (l : List UInt8) : decode (encode l) = l := by
  induction l using encode.induct with
  | case1 => rfl
  | case2 a =>
    have ha := a.toNat_lt
    unfold encode decode
    rw [index_char _ (by omega), index_char _ (by omega), if_pos rfl]
    have h₁ : a.toNat / 4 * 4 + a.toNat % 4 * 16 / 16 = a.toNat := by omega
    rw [h₁, UInt8.ofNat_toNat]
  | case3 a b =>
    have ha := a.toNat_lt
    have hb := b.toNat_lt
    unfold encode decode
    rw [index_char _ (by omega), index_char _ (by omega), index_char _ (by omega),
      if_neg (char_ne_pad _ (by omega)), if_pos rfl]
    have h₁ : a.toNat / 4 * 4 + (a.toNat % 4 * 16 + b.toNat / 16) / 16 = a.toNat := by omega
    have h₂ : (a.toNat % 4 * 16 + b.toNat / 16) % 16 * 16 + b.toNat % 16 * 4 / 4 = b.toNat := by
      omega
    rw [h₁, h₂, UInt8.ofNat_toNat, UInt8.ofNat_toNat]
  | case4 a b c rest ih =>
    have ha := a.toNat_lt
    have hb := b.toNat_lt
    have hc := c.toNat_lt
    unfold encode decode
    rw [index_char _ (by omega), index_char _ (by omega), index_char _ (by omega),
      index_char _ (by omega), if_neg (char_ne_pad _ (by omega)), if_neg (char_ne_pad _ (by omega)),
      ih]
    have h₁ : a.toNat / 4 * 4 + (a.toNat % 4 * 16 + b.toNat / 16) / 16 = a.toNat := by omega
    have h₂ : (a.toNat % 4 * 16 + b.toNat / 16) % 16 * 16 + (b.toNat % 16 * 4 + c.toNat / 64) / 4 =
      b.toNat := by omega
    have h₃ : (b.toNat % 16 * 4 + c.toNat / 64) % 4 * 64 + c.toNat % 64 = c.toNat := by omega
    rw [h₁, h₂, h₃, UInt8.ofNat_toNat, UInt8.ofNat_toNat, UInt8.ofNat_toNat]

theorem encode_lt (l : List UInt8) : ∀ c ∈ encode l, c.toNat < 128 := by
  induction l using encode.induct with
  | case1 => intro c hc; cases hc
  | case2 a =>
    have ha := a.toNat_lt
    have h₁ := char_lt (a.toNat / 4) (by omega)
    have h₂ := char_lt (a.toNat % 4 * 16) (by omega)
    simpa [encode] using ⟨h₁, h₂⟩
  | case3 a b =>
    have ha := a.toNat_lt
    have hb := b.toNat_lt
    have h₁ := char_lt (a.toNat / 4) (by omega)
    have h₂ := char_lt (a.toNat % 4 * 16 + b.toNat / 16) (by omega)
    have h₃ := char_lt (b.toNat % 16 * 4) (by omega)
    simpa [encode] using ⟨h₁, h₂, h₃⟩
  | case4 a b c rest ih =>
    have ha := a.toNat_lt
    have hb := b.toNat_lt
    have hc := c.toNat_lt
    have h₁ := char_lt (a.toNat / 4) (by omega)
    have h₂ := char_lt (a.toNat % 4 * 16 + b.toNat / 16) (by omega)
    have h₃ := char_lt (b.toNat % 16 * 4 + c.toNat / 64) (by omega)
    have h₄ := char_lt (c.toNat % 64) (by omega)
    simpa [encode] using ⟨h₁, h₂, h₃, h₄, ih⟩

/-- Text as ASCII bytes. -/
def toAscii (l : List Char) : List UInt8 := l.map fun c => UInt8.ofNat c.toNat

def ofAscii (b : List UInt8) : List Char := b.map fun x => Char.ofNat x.toNat

theorem ofAscii_toAscii {l : List Char} (h : ∀ c ∈ l, c.toNat < 128) : ofAscii (toAscii l) = l := by
  unfold ofAscii toAscii
  rw [List.map_map]
  conv_rhs => rw [← List.map_id l]
  refine List.map_congr_left fun c hc => ?_
  have hlt := h c hc
  have h₁ : (UInt8.ofNat c.toNat).toNat = c.toNat := by
    rw [UInt8.toNat_ofNat']
    omega
  simp [h₁]

end Base64
