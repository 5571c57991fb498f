import Mathlib.Algebra.Group.Nat.Defs
import Mathlib.Data.Nat.Bitwise
import ZMachine.Number

/-!
# Words and their parts

Words are put together from smaller numbers by shifting and joining. When the parts
do not overlap this is addition (`toNat_shiftLeft_or`), and so the two bytes of a
word give the word back.

Bits are taken out of a byte by masking and shifting. On its number these are
remainder and division by powers of two.
-/

set_option autoImplicit false

namespace ZMachine

/-- A number joined below a shifted one is added to it. -/
theorem toNat_shiftLeft_or {a b k : Word} (narrow : k.toNat < 16)
    (fits : a.toNat * 2 ^ k.toNat < 2 ^ 16) (low : b.toNat < 2 ^ k.toNat) :
    ((a <<< k) ||| b).toNat = a.toNat * 2 ^ k.toNat + b.toNat := by
  rw [UInt16.toNat_or, UInt16.toNat_shiftLeft, Nat.mod_eq_of_lt narrow, Nat.shiftLeft_eq,
    Nat.mod_eq_of_lt fits, ← Nat.shiftLeft_eq, ← Nat.shiftLeft_add_eq_or_of_lt low]

theorem toNat_wordOfBytes (high low : Byte) :
    (wordOfBytes high low).toNat = high.toNat * 256 + low.toNat := by
  have bound := high.toNat_lt
  rw [wordOfBytes, toNat_shiftLeft_or (by decide)]
  · simp
  · rw [UInt8.toNat_toUInt16]
    exact Nat.mul_lt_mul_of_pos_right bound (by decide)
  · simpa using low.toNat_lt

theorem toNat_highByte (w : Word) : (highByte w).toNat = w.toNat / 256 := by
  have bound := w.toNat_lt
  have shifted : (w >>> 8).toNat = w.toNat / 256 := by
    simp [Nat.shiftRight_eq_div_pow]
  rw [highByte, UInt16.toNat_toUInt8, shifted]
  omega

theorem toNat_lowByte (w : Word) : (lowByte w).toNat = w.toNat % 256 := by
  rw [lowByte, UInt16.toNat_toUInt8]

/-- The bytes of a word give the word back. -/
@[simp] theorem wordOfBytes_bytes (w : Word) : wordOfBytes (highByte w) (lowByte w) = w := by
  apply UInt16.toNat_inj.mp
  rw [toNat_wordOfBytes, toNat_highByte, toNat_lowByte]
  omega

/-- A word gives the bytes that it was made of. -/
@[simp] theorem highByte_wordOfBytes (high low : Byte) : highByte (wordOfBytes high low) = high := by
  have bound := low.toNat_lt
  apply UInt8.toNat_inj.mp
  rw [toNat_highByte, toNat_wordOfBytes]
  omega

@[simp] theorem lowByte_wordOfBytes (high low : Byte) : lowByte (wordOfBytes high low) = low := by
  have bound := low.toNat_lt
  apply UInt8.toNat_inj.mp
  rw [toNat_lowByte, toNat_wordOfBytes]
  omega

/-! ## Bits of a byte -/

/-- A number below 256, a bound that arithmetic can see, is kept by a byte. -/
theorem toNat_byte {n : Nat} (narrow : n < 256) : (UInt8.ofNat n).toNat = n :=
  UInt8.toNat_ofNat_of_lt' narrow

/-- Masking the low bits of a byte takes its remainder. -/
theorem toNat_and_mask {mask : Byte} {k : Nat} (b : Byte) (ones : mask.toNat = 2 ^ k - 1) :
    (b &&& mask).toNat = b.toNat % 2 ^ k := by
  rw [UInt8.toNat_and, ones, Nat.and_two_pow_sub_one_eq_mod]

/-- The low bits of a byte, where they hold a number, are that number. -/
theorem and_mask_eq {b mask number : Byte} (k : Nat) (ones : mask.toNat = 2 ^ k - 1)
    (held : b.toNat % 2 ^ k = number.toNat) : b &&& mask = number := by
  apply UInt8.toNat_inj.mp
  rw [toNat_and_mask b ones, held]

/-- A single bit of a byte is clear exactly if its digit is zero. -/
theorem and_bit_eq_zero {bit : Byte} (b : Byte) (k : Nat) (one : bit.toNat = 2 ^ k) :
    b &&& bit = 0 ↔ b.toNat / 2 ^ k % 2 = 0 := by
  rw [← UInt8.toNat_inj, UInt8.toNat_and, one, Nat.and_two_pow, Nat.testBit_eq_decide_div_mod_eq]
  by_cases clear : b.toNat / 2 ^ k % 2 = 0
  · simp [clear]
  · have set : b.toNat / 2 ^ k % 2 = 1 := by omega
    simp [set]

theorem toNat_shiftRight (b k : Byte) : (b >>> k).toNat = b.toNat / 2 ^ (k.toNat % 8) := by
  rw [UInt8.toNat_shiftRight, Nat.shiftRight_eq_div_pow]

end ZMachine
