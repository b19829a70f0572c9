import Mathlib.Data.Nat.Bitwise
import Mathlib.Tactic.Ring

/-! # Big-endian length prefixes

A 32-bit length as four bytes, most significant first, and the word that C code assembles from
four received bytes by shifting and or-ing.

The shifts do not overlap: a byte that is shifted by eight bits has nothing in the bits of the
next one, so that the or is a sum (`toNat_word`).  With a sum the two directions are arithmetic,
and they are inverse for every length below 2^32 (`toNat_word_bytes`).  A longer length is cut
to its lower 32 bits, and the bytes of such a length are those of another one.
-/
namespace BigEndian

/-- The four bytes of `n`, most significant first. -/
def bytes (n : Nat) : List UInt8 :=
  [UInt8.ofNat (n / 2 ^ 24), UInt8.ofNat (n / 2 ^ 16), UInt8.ofNat (n / 2 ^ 8), UInt8.ofNat n]

/-- The word that `(b0 << 24) | (b1 << 16) | (b2 << 8) | b3` gives. -/
def word (b0 b1 b2 b3 : UInt8) : UInt32 :=
  (b0.toUInt32 <<< 24) ||| (b1.toUInt32 <<< 16) ||| (b2.toUInt32 <<< 8) ||| b3.toUInt32

@[simp] theorem length_bytes (n : Nat) : (bytes n).length = 4 := rfl

theorem mul_pow_or {hi : Nat} (k lo : Nat) (h : lo < 2 ^ k) :
    hi * 2 ^ k ||| lo = hi * 2 ^ k + lo := by
  rw [← Nat.shiftLeft_eq, Nat.shiftLeft_add_eq_or_of_lt h]

theorem toNat_shiftLeft_byte (b : UInt8) {k : Nat} (hk : k ≤ 24) :
    (b.toUInt32 <<< (UInt32.ofNat k)).toNat = b.toNat * 2 ^ k := by
  have hb : b.toNat * 2 ^ k < 2 ^ 32 :=
    calc b.toNat * 2 ^ k < 2 ^ 8 * 2 ^ k :=
          Nat.mul_lt_mul_of_pos_right b.toNat_lt (Nat.two_pow_pos k)
      _ = 2 ^ (8 + k) := (Nat.pow_add 2 8 k).symm
      _ ≤ 2 ^ 32 := Nat.pow_le_pow_right (by decide) (by omega)
  rw [UInt32.toNat_shiftLeft, UInt8.toNat_toUInt32, UInt32.toNat_ofNat', Nat.shiftLeft_eq,
    Nat.mod_eq_of_lt (show k < 2 ^ 32 by omega), Nat.mod_eq_of_lt (show k < 32 by omega),
    Nat.mod_eq_of_lt hb]

theorem toNat_word (b0 b1 b2 b3 : UInt8) :
    (word b0 b1 b2 b3).toNat =
      ((b0.toNat * 2 ^ 8 + b1.toNat) * 2 ^ 8 + b2.toNat) * 2 ^ 8 + b3.toNat := by
  have h1 := b1.toNat_lt
  have h2 := b2.toNat_lt
  have h3 := b3.toNat_lt
  have e0 := toNat_shiftLeft_byte b0 (k := 24) (by decide)
  have e1 := toNat_shiftLeft_byte b1 (k := 16) (by decide)
  have e2 := toNat_shiftLeft_byte b2 (k := 8) (by decide)
  simp only [word, UInt32.toNat_or, UInt8.toNat_toUInt32]
  rw [show (24 : UInt32) = UInt32.ofNat 24 from rfl, show (16 : UInt32) = UInt32.ofNat 16 from rfl,
    show (8 : UInt32) = UInt32.ofNat 8 from rfl, e0, e1, e2]
  rw [mul_pow_or 24 (b1.toNat * 2 ^ 16) (by omega),
    show b0.toNat * 2 ^ 24 + b1.toNat * 2 ^ 16 = (b0.toNat * 2 ^ 8 + b1.toNat) * 2 ^ 16 by ring,
    mul_pow_or 16 (b2.toNat * 2 ^ 8) (by omega),
    show (b0.toNat * 2 ^ 8 + b1.toNat) * 2 ^ 16 + b2.toNat * 2 ^ 8 =
      ((b0.toNat * 2 ^ 8 + b1.toNat) * 2 ^ 8 + b2.toNat) * 2 ^ 8 by ring,
    mul_pow_or 8 b3.toNat (by omega)]

/-- **Assembling the bytes of a 32-bit length gives it back.** -/
theorem toNat_word_bytes {n : Nat} (h : n < 2 ^ 32) :
    (word (UInt8.ofNat (n / 2 ^ 24)) (UInt8.ofNat (n / 2 ^ 16)) (UInt8.ofNat (n / 2 ^ 8))
      (UInt8.ofNat n)).toNat = n := by
  rw [toNat_word]
  simp only [UInt8.toNat_ofNat']
  omega

end BigEndian
