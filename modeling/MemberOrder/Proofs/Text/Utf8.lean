import Mathlib.Tactic.SplitIfs
import MemberOrder.Text.Utf8

/-!
Decoding gives back the text that was encoded. A code point takes one to four bytes by its size;
the first byte tells how many follow and each of those holds six bits, and no code point is written
with more bytes than it needs.
-/

set_option autoImplicit false

namespace MemberOrder.Utf8

theorem toNat_ofNat {n : Nat} (h : n < 0x100) : (UInt8.ofNat n).toNat = n :=
  UInt8.toNat_ofNat_of_lt' h

theorem ofNat_lt_iff {n : Nat} (h : n < 0x100) (b : UInt8) :
    UInt8.ofNat n < b ↔ n < b.toNat := by
  rw [UInt8.lt_iff_toNat_lt, toNat_ofNat h]

theorem isContinuation_ofNat {y : Nat} (h : y < 0x40) :
    isContinuation (UInt8.ofNat (0x80 + y)) = true := by
  have hall : ∀ y : Fin 0x40, isContinuation (UInt8.ofNat (0x80 + y)) = true := by decide
  exact hall ⟨y, h⟩

theorem sixBits_ofNat {y : Nat} (h : y < 0x40) : sixBits (UInt8.ofNat (0x80 + y)) = y := by
  rw [sixBits, toNat_ofNat (by omega)]
  omega

theorem fits_ofNat {x y : Nat} (hx : x < 0x100) (hy : y < 0x40)
    (hlong₃ : x = 0xe0 → 0x20 ≤ y) (hsurrogate : x = 0xed → y < 0x20)
    (hlong₄ : x = 0xf0 → 0x10 ≤ y) (hlarge : x = 0xf4 → y < 0x10) :
    fits (UInt8.ofNat x) (UInt8.ofNat (0x80 + y)) = true := by
  have heq (b : UInt8) : UInt8.ofNat x = b ↔ x = b.toNat := by
    rw [← UInt8.toNat_inj, toNat_ofNat hx]
  have hle (b : UInt8) : b ≤ UInt8.ofNat (0x80 + y) ↔ b.toNat ≤ 0x80 + y := by
    rw [UInt8.le_iff_toNat_le, toNat_ofNat (by omega)]
  simp only [fits, isContinuation_ofNat hy, heq, hle, ofNat_lt_iff (show 0x80 + y < 0x100 by omega),
    Bool.true_and, Bool.and_eq_true, Bool.not_eq_true', Bool.and_eq_false_imp, beq_iff_eq,
    decide_eq_false_iff_not, UInt8.reduceToNat]
  omega

section Sequences

variable (position : Nat) (rest : List UInt8) {w x y z : Nat}

theorem decodeFrom_one (hw : w < 0x80) :
    decodeFrom position (UInt8.ofNat w :: rest) =
      (decodeFrom (position + 1) rest).map (Char.ofNat w :: ·) := by
  rw [decodeFrom.eq_def]
  simp only [ofNat_lt_iff (show w < 0x100 by omega), UInt8.reduceToNat,
    toNat_ofNat (show w < 0x100 by omega)]
  rw [if_pos hw]

theorem decodeFrom_two (hw : w < 0x20) (hlong : 2 ≤ w) (hx : x < 0x40) :
    decodeFrom position (UInt8.ofNat (0xc0 + w) :: UInt8.ofNat (0x80 + x) :: rest) =
      (decodeFrom (position + 2) rest).map (Char.ofNat (w * 0x40 + x) :: ·) := by
  rw [decodeFrom]
  simp only [ofNat_lt_iff (show 0xc0 + w < 0x100 by omega), UInt8.reduceToNat,
    toNat_ofNat (show 0xc0 + w < 0x100 by omega), isContinuation_ofNat hx, sixBits_ofNat hx]
  rw [if_neg (by omega), if_neg (by omega), if_pos (by omega), if_pos trivial,
    show (0xc0 + w) % 0x20 = w by omega]

theorem decodeFrom_three (hw : w < 0x10) (hx : x < 0x40) (hy : y < 0x40)
    (hlong : w = 0 → 0x20 ≤ x) (hsurrogate : w = 0xd → x < 0x20) :
    decodeFrom position (UInt8.ofNat (0xe0 + w) :: UInt8.ofNat (0x80 + x) ::
        UInt8.ofNat (0x80 + y) :: rest) =
      (decodeFrom (position + 3) rest).map (Char.ofNat (w * 0x1000 + x * 0x40 + y) :: ·) := by
  have hfits : fits (UInt8.ofNat (0xe0 + w)) (UInt8.ofNat (0x80 + x)) = true :=
    fits_ofNat (by omega) hx (by omega) (by omega) (by omega) (by omega)
  rw [decodeFrom]
  simp only [ofNat_lt_iff (show 0xe0 + w < 0x100 by omega), UInt8.reduceToNat,
    toNat_ofNat (show 0xe0 + w < 0x100 by omega), isContinuation_ofNat hy, sixBits_ofNat hx,
    sixBits_ofNat hy, hfits]
  rw [if_neg (by omega), if_neg (by omega), if_neg (by omega), if_pos (by omega),
    if_neg (by decide), if_neg (by decide), show (0xe0 + w) % 0x10 = w by omega]

theorem decodeFrom_four (hw : w < 5) (hx : x < 0x40) (hy : y < 0x40) (hz : z < 0x40)
    (hlong : w = 0 → 0x10 ≤ x) (hlarge : w = 4 → x < 0x10) :
    decodeFrom position (UInt8.ofNat (0xf0 + w) :: UInt8.ofNat (0x80 + x) ::
        UInt8.ofNat (0x80 + y) :: UInt8.ofNat (0x80 + z) :: rest) =
      (decodeFrom (position + 4) rest).map
        (Char.ofNat (w * 0x40000 + x * 0x1000 + y * 0x40 + z) :: ·) := by
  have hfits : fits (UInt8.ofNat (0xf0 + w)) (UInt8.ofNat (0x80 + x)) = true :=
    fits_ofNat (by omega) hx (by omega) (by omega) (by omega) (by omega)
  rw [decodeFrom]
  simp only [ofNat_lt_iff (show 0xf0 + w < 0x100 by omega), UInt8.reduceToNat,
    toNat_ofNat (show 0xf0 + w < 0x100 by omega), isContinuation_ofNat hy,
    isContinuation_ofNat hz, sixBits_ofNat hx, sixBits_ofNat hy, sixBits_ofNat hz, hfits]
  rw [if_neg (by omega), if_neg (by omega), if_neg (by omega), if_neg (by omega),
    if_pos (by omega), if_neg (by decide), if_neg (by decide), if_neg (by decide),
    show (0xf0 + w) % 0x8 = w by omega]

end Sequences

/-- The bytes of a character are read back as this character, whatever follows them. -/
theorem decodeFrom_encodeNat (position : Nat) (c : Char) (rest : List UInt8) :
    ∃ position', decodeFrom position ((encodeNat c.toNat).map UInt8.ofNat ++ rest) =
      (decodeFrom position' rest).map (c :: ·) := by
  have hchar : Char.ofNat c.toNat = c := Char.ofNat_toNat c
  have hvalid : c.toNat < 0xd800 ∨ 0xdfff < c.toNat ∧ c.toNat < 0x110000 := c.valid
  unfold encodeNat
  split_ifs with hone htwo hthree
  · have h := decodeFrom_one position rest hone
    rw [hchar] at h
    exact ⟨_, h⟩
  · have h := decodeFrom_two position rest (w := c.toNat / 0x40) (x := c.toNat % 0x40) (by omega)
      (by omega) (by omega)
    rw [show c.toNat / 0x40 * 0x40 + c.toNat % 0x40 = c.toNat by omega, hchar] at h
    exact ⟨_, h⟩
  · have h := decodeFrom_three position rest (w := c.toNat / 0x1000) (x := c.toNat / 0x40 % 0x40)
      (y := c.toNat % 0x40) (by omega) (by omega) (by omega) (by omega) (by omega)
    rw [show c.toNat / 0x1000 * 0x1000 + c.toNat / 0x40 % 0x40 * 0x40 + c.toNat % 0x40 = c.toNat by
      omega, hchar] at h
    exact ⟨_, h⟩
  · have h := decodeFrom_four position rest (w := c.toNat / 0x40000)
      (x := c.toNat / 0x1000 % 0x40) (y := c.toNat / 0x40 % 0x40) (z := c.toNat % 0x40) (by omega)
      (by omega) (by omega) (by omega) (by omega) (by omega)
    rw [show c.toNat / 0x40000 * 0x40000 + c.toNat / 0x1000 % 0x40 * 0x1000 +
      c.toNat / 0x40 % 0x40 * 0x40 + c.toNat % 0x40 = c.toNat by omega, hchar] at h
    exact ⟨_, h⟩

/-- Decoding gives back the text that was encoded. -/
theorem decode_encode (t : Text) : decode (encode t) = .ok t := by
  suffices h : ∀ position, decodeFrom position (encode t) = .ok t from h 0
  induction t with
  | nil => exact fun position ↦ rfl
  | cons c t ih =>
    intro position
    obtain ⟨position', heq⟩ := decodeFrom_encodeNat position c (encode t)
    refine heq.trans ?_
    rw [ih]
    rfl

end MemberOrder.Utf8
