/-
# RiscvVp.Lib.Mask -- the low bits of a word, and the others

`(1 << k) - 1` as a mask: taking the low `k` bits is a remainder, clearing them is
rounding down, and a rounded word joined with one of `k` bits is their sum.
-/
import Mathlib.Data.BitVec

namespace RiscvVp.Lib

set_option autoImplicit false

variable {w k : Nat}

theorem mask_toNat (small : k < w) : ((1#w <<< k) - 1#w).toNat = 2 ^ k - 1 := by
  have bound : 2 ^ k < 2 ^ w := Nat.pow_lt_pow_right (by decide) small
  have one : (1#w).toNat = 1 := BitVec.toNat_one (by omega)
  have shifted : (1#w <<< k).toNat = 2 ^ k := by
    rw [BitVec.toNat_shiftLeft, Nat.shiftLeft_eq, one, Nat.one_mul, Nat.mod_eq_of_lt bound]
  have le : 1#w ≤ 1#w <<< k := by
    rw [BitVec.le_def, shifted, one]
    exact Nat.one_le_two_pow
  rw [BitVec.toNat_sub_of_le le, shifted, one]

theorem and_mask_toNat (x : BitVec w) (small : k < w) :
    (x &&& ((1#w <<< k) - 1#w)).toNat = x.toNat % 2 ^ k := by
  rw [BitVec.toNat_and, mask_toNat small, Nat.and_two_pow_sub_one_eq_mod]

theorem and_not_mask_toNat (x : BitVec w) (small : k < w) :
    (x &&& ~~~((1#w <<< k) - 1#w)).toNat = x.toNat / 2 ^ k * 2 ^ k := by
  have shifts : x &&& ~~~((1#w <<< k) - 1#w) = (x >>> k) <<< k := by
    ext j bound
    have bit : ((1#w <<< k) - 1#w).getLsbD j = decide (j < k) := by
      rw [← BitVec.testBit_toNat, mask_toNat small, Nat.testBit_two_pow_sub_one]
    rw [← BitVec.getLsbD_eq_getElem, ← BitVec.getLsbD_eq_getElem, BitVec.getLsbD_and,
      BitVec.getLsbD_not, bit, BitVec.getLsbD_shiftLeft, BitVec.getLsbD_ushiftRight]
    by_cases low : j < k
    · simp [low]
    · rw [Nat.add_sub_cancel' (Nat.le_of_not_lt low)]
      simp [low, bound]
  have bound : x.toNat / 2 ^ k * 2 ^ k ≤ x.toNat := Nat.div_mul_le_self _ _
  rw [shifts, BitVec.toNat_shiftLeft, BitVec.toNat_ushiftRight, Nat.shiftLeft_eq,
    Nat.shiftRight_eq_div_pow, Nat.mod_eq_of_lt (Nat.lt_of_le_of_lt bound x.isLt)]

/-! ## Alignment -/

theorem and_one_eq_zero_iff (wide : 1 < w) (x : BitVec w) : x &&& 1 = 0 ↔ x.toNat % 2 = 0 := by
  have mask : (1#w).toNat = 1 := BitVec.toNat_one (by omega)
  rw [← BitVec.toNat_inj, BitVec.toNat_and]
  change x.toNat &&& (1#w).toNat = (0#w).toNat ↔ _
  rw [mask, Nat.and_one_is_mod, BitVec.toNat_zero]

theorem and_three_eq_zero_iff (wide : 2 < w) (x : BitVec w) : x &&& 3 = 0 ↔ x.toNat % 4 = 0 := by
  have mask : (3#w).toNat = 2 ^ 2 - 1 := by
    have size : 2 ^ 3 ≤ 2 ^ w := Nat.pow_le_pow_right (by decide) wide
    exact (BitVec.toNat_ofNat 3 w).trans (Nat.mod_eq_of_lt (by omega))
  rw [← BitVec.toNat_inj, BitVec.toNat_and]
  change x.toNat &&& (3#w).toNat = (0#w).toNat ↔ _
  rw [mask, Nat.and_two_pow_sub_one_eq_mod, BitVec.toNat_zero]

/-- The sum of two words has the low bits of the sum of the numbers. -/
theorem add_toNat_mod (small : k ≤ w) (x y : BitVec w) :
    (x + y).toNat % 2 ^ k = (x.toNat + y.toNat) % 2 ^ k := by
  rw [BitVec.toNat_add, Nat.mod_mod_of_dvd _ (Nat.pow_dvd_pow 2 small)]

/-- A word with `k` zero bits at its end, joined with one of `k` bits. -/
theorem or_toNat {x y : BitVec w} {a : Nat} (high : x.toNat = 2 ^ k * a) (low : y.toNat < 2 ^ k) :
    (x ||| y).toNat = x.toNat + y.toNat := by
  rw [BitVec.toNat_or, high, Nat.two_pow_add_eq_or_of_lt low]

end RiscvVp.Lib
