/-
# RiscvVp.Lib.TwosComplement -- words as numbers

The operations on bit vectors, as operations on the numbers they stand for: unsigned
(`toNat`) or signed (`toInt`), with the result taken modulo the size of the word.
-/
import Mathlib.Data.BitVec

namespace RiscvVp.Lib.TwosComplement

set_option autoImplicit false

variable {w v : Nat} (a b : BitVec w)

theorem eq_ofInt_of_toNat {x : BitVec w} {n : Nat} (value : x.toNat = n % 2 ^ w) :
    x = BitVec.ofInt w n := by
  apply BitVec.eq_of_toNat_eq
  rw [BitVec.ofInt_natCast, BitVec.toNat_ofNat, value]

theorem eq_ofInt_of_toInt {x : BitVec w} {n : Int} (value : x.toInt = n) : x = BitVec.ofInt w n := by
  rw [← value, BitVec.ofInt_toInt]

theorem add_eq : a + b = BitVec.ofInt w (a.toInt + b.toInt) := by
  rw [BitVec.ofInt_add, BitVec.ofInt_toInt, BitVec.ofInt_toInt]

theorem sub_eq : a - b = BitVec.ofInt w (a.toInt - b.toInt) := by
  rw [Int.sub_eq_add_neg, BitVec.ofInt_add, BitVec.ofInt_neg, BitVec.ofInt_toInt, BitVec.ofInt_toInt,
    BitVec.sub_eq_add_neg]

theorem mul_eq : a * b = BitVec.ofInt w (a.toInt * b.toInt) := by
  rw [BitVec.ofInt_mul, BitVec.ofInt_toInt, BitVec.ofInt_toInt]

/-! ## Shifts -/

theorem shiftLeft_eq (n : Nat) : a <<< n = BitVec.ofInt w ↑(a.toNat * 2 ^ n) :=
  eq_ofInt_of_toNat (by rw [BitVec.toNat_shiftLeft, Nat.shiftLeft_eq])

theorem ushiftRight_eq (n : Nat) : a >>> n = BitVec.ofInt w ↑(a.toNat / 2 ^ n) := by
  apply eq_ofInt_of_toNat
  rw [BitVec.toNat_ushiftRight, Nat.shiftRight_eq_div_pow, Nat.mod_eq_of_lt]
  exact Nat.lt_of_le_of_lt (Nat.div_le_self _ _) a.isLt

theorem sshiftRight_eq (n : Nat) : a.sshiftRight n = BitVec.ofInt w (a.toInt / 2 ^ n) :=
  eq_ofInt_of_toInt (by rw [BitVec.toInt_sshiftRight, Int.shiftRight_eq_div_pow]; norm_cast)

/-! ## Widths -/

theorem setWidth_eq_ofInt : a.setWidth v = BitVec.ofInt v a.toNat := by
  rw [BitVec.ofInt_natCast, BitVec.ofNat_toNat]

theorem signExtend_eq_ofInt : a.signExtend v = BitVec.ofInt v a.toInt := rfl

/-- The upper half of a number of twice the width. -/
theorem high_half (p : Int) :
    (BitVec.ofInt (2 * w) p >>> w).setWidth w = BitVec.ofInt w (p / 2 ^ w) := by
  have positive : (0 : Int) < 2 ^ w := Int.pow_pos (by decide)
  have positive' : (0 : Int) < 2 ^ (2 * w) := Int.pow_pos (by decide)
  -- in numbers: `(p mod 2^2w) / 2^w` is `p / 2^w` modulo `2^w`
  have split : p % 2 ^ (2 * w) / 2 ^ w = p / 2 ^ w % 2 ^ w := by
    have square : (2 : Int) ^ (2 * w) = 2 ^ w * 2 ^ w := by rw [Nat.two_mul, Int.pow_add]
    rw [square, Int.emod_def, Int.emod_def, Int.mul_assoc, Int.sub_mul_ediv_left _ _ (by omega),
      Int.ediv_ediv_of_nonneg (by omega)]
  have low := Int.emod_nonneg p (Int.ne_of_gt positive')
  have low' := Int.emod_nonneg (p / 2 ^ w) (Int.ne_of_gt positive)
  apply BitVec.eq_of_toNat_eq
  rw [BitVec.toNat_setWidth, BitVec.toNat_ushiftRight, BitVec.toNat_ofInt, BitVec.toNat_ofInt,
    Nat.shiftRight_eq_div_pow]
  apply Int.natCast_inj.mp
  push_cast
  rw [Int.toNat_of_nonneg low, Int.toNat_of_nonneg low', split, Int.emod_emod]

/-! ## Division -/

theorem udiv_eq : a / b = BitVec.ofInt w ↑(a.toNat / b.toNat) := by
  apply eq_ofInt_of_toNat
  rw [BitVec.toNat_udiv, Nat.mod_eq_of_lt]
  exact Nat.lt_of_le_of_lt (Nat.div_le_self _ _) a.isLt

theorem umod_eq : a % b = BitVec.ofInt w ↑(a.toNat % b.toNat) := by
  apply eq_ofInt_of_toNat
  have small : a.toNat % b.toNat < 2 ^ w := Nat.lt_of_le_of_lt (Nat.mod_le _ _) a.isLt
  rw [BitVec.toNat_umod, Nat.mod_eq_of_lt small]

theorem sdiv_eq : a.sdiv b = BitVec.ofInt w (a.toInt.tdiv b.toInt) := by
  apply BitVec.eq_of_toInt_eq
  rw [BitVec.toInt_sdiv, BitVec.toInt_ofInt]

theorem srem_eq : a.srem b = BitVec.ofInt w (a.toInt.tmod b.toInt) :=
  eq_ofInt_of_toInt (BitVec.toInt_srem a b)

end RiscvVp.Lib.TwosComplement
