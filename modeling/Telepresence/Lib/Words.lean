import Telepresence.Lib.Prefixes

/-!
# Words and their bytes

Code that takes a machine word apart masks and shifts out each byte, and code
that puts it together shifts the bytes and takes the bitwise or.  The lemmas
turn both into arithmetic.

* `maskedByte32`, `maskedByte64`: a byte that is masked and shifted out.
* `toNat_shiftedByte32`, `toNat_shiftedByte64`, `or_shiftedByte`: bytes that
  are put together, from the highest one on.
-/

namespace Words

theorem maskedByte (n s : Nat) : (n &&& 255 <<< s) >>> s % 256 = n / 2 ^ s % 256 := by
  have hmask : (255 <<< s) >>> s = 2 ^ 8 - 1 := by
    rw [Nat.shiftLeft_shiftRight]
    rfl
  rw [Nat.shiftRight_and_distrib, hmask, Nat.and_two_pow_sub_one_eq_mod,
    Nat.shiftRight_eq_div_pow]
  exact Nat.mod_mod _ _

theorem maskedByte32 (v m : UInt32) (s : Nat) (hs : s < 32) (hm : m.toNat = 255 <<< s) :
    ((v &&& m) >>> UInt32.ofNat s).toUInt8 = UInt8.ofNat (v.toNat / 2 ^ s) := by
  have hshift : s % 2 ^ 32 % 32 = s := by omega
  rw [← UInt8.toNat_inj, UInt32.toNat_toUInt8, UInt32.toNat_shiftRight, UInt32.toNat_and, hm,
    UInt32.toNat_ofNat', UInt8.toNat_ofNat', hshift]
  exact maskedByte _ _

theorem maskedByte64 (v m : UInt64) (s : Nat) (hs : s < 64) (hm : m.toNat = 255 <<< s) :
    ((v &&& m) >>> UInt64.ofNat s).toUInt8 = UInt8.ofNat (v.toNat / 2 ^ s) := by
  have hshift : s % 2 ^ 64 % 64 = s := by omega
  rw [← UInt8.toNat_inj, UInt64.toNat_toUInt8, UInt64.toNat_shiftRight, UInt64.toNat_and, hm,
    UInt64.toNat_ofNat', UInt8.toNat_ofNat', hshift]
  exact maskedByte _ _

/-- A shifted byte fits in a word that has room for it. -/
theorem shiftedByte_lt {b s w : Nat} (hb : b < 2 ^ 8) (hs : 8 + s ≤ w) : b * 2 ^ s < 2 ^ w := calc
  b * 2 ^ s < 2 ^ 8 * 2 ^ s := Nat.mul_lt_mul_of_pos_right hb (Nat.two_pow_pos s)
  _ = 2 ^ (8 + s) := (Nat.pow_add 2 8 s).symm
  _ ≤ 2 ^ w := Nat.pow_le_pow_right (by decide) hs

/-- One more byte, below those that are set so far. -/
theorem or_shiftedByte (bs : List UInt8) (b : UInt8) (s : Nat) :
    BigEndian.toNat bs * 2 ^ (8 + s) ||| b.toNat * 2 ^ s = BigEndian.toNat (bs ++ [b]) * 2 ^ s := by
  have hlt : b.toNat * 2 ^ s < 2 ^ (8 + s) := shiftedByte_lt b.toNat_lt (Nat.le_refl _)
  rw [Nat.mul_comm, ← Nat.two_pow_add_eq_or_of_lt hlt, BigEndian.toNat_append,
    BigEndian.toNat_singleton, List.length_singleton, Nat.pow_add]
  ring

theorem toNat_shiftedByte32 (b : UInt8) (s : UInt32) (hs : s.toNat ≤ 24) :
    (b.toUInt32 <<< s).toNat = b.toNat * 2 ^ s.toNat := by
  have hlt : b.toNat * 2 ^ s.toNat < 2 ^ 32 := shiftedByte_lt b.toNat_lt (by omega)
  have hshift : s.toNat % 32 = s.toNat := by omega
  rw [UInt32.toNat_shiftLeft, UInt8.toNat_toUInt32, hshift, Nat.shiftLeft_eq, Nat.mod_eq_of_lt hlt]

theorem toNat_shiftedByte64 (b : UInt8) (s : UInt64) (hs : s.toNat ≤ 56) :
    (b.toUInt64 <<< s).toNat = b.toNat * 2 ^ s.toNat := by
  have hlt : b.toNat * 2 ^ s.toNat < 2 ^ 64 := shiftedByte_lt b.toNat_lt (by omega)
  have hshift : s.toNat % 64 = s.toNat := by omega
  rw [UInt64.toNat_shiftLeft, UInt8.toNat_toUInt64, hshift, Nat.shiftLeft_eq, Nat.mod_eq_of_lt hlt]

end Words
