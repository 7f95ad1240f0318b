/-
# RiscvVp.Platform.RealClintTime -- what the ticks of the host's clock are worth

The clock of `RealCLINT` is to run at 32768 Hz, a tick every 30.5 microseconds and some.  `DIVIDEND` is a
quotient of integers and comes out at 30, so that a tick is short by 265/512 of a microsecond, and what was
lost adds up with the time that has passed.
-/
import RiscvVp.Platform.RealClint
import Mathlib.Algebra.Order.Field.Basic
import Mathlib.Algebra.Order.Field.Rat

namespace RiscvVp.RealClint

set_option autoImplicit false

theorem toNat_dividend : dividend.toNat = 30 := by decide

theorem toNat_usecToTicks (usec : BitVec 64) : (usecToTicks usec).toNat = usec.toNat / 30 := by
  unfold usecToTicks
  rw [BitVec.toNat_udiv, toNat_dividend]

theorem toNat_ticksToUsec {ticks : BitVec 64} (fits : ticks.toNat * 30 < 2 ^ 64) :
    (ticksToUsec ticks).toNat = ticks.toNat * 30 := by
  unfold ticksToUsec
  rw [BitVec.toNat_mul, toNat_dividend, Nat.mod_eq_of_lt fits]

/-- Ticks to microseconds and back. -/
theorem usecToTicks_ticksToUsec {ticks : BitVec 64} (fits : ticks.toNat * 30 < 2 ^ 64) :
    usecToTicks (ticksToUsec ticks) = ticks := by
  apply BitVec.eq_of_toNat_eq
  rw [toNat_usecToTicks, toNat_ticksToUsec fits, Nat.mul_div_cancel _ (by decide)]

/-- A number is within one of a fraction. -/
theorem abs_sub_div_le_one_iff {a n q : ℕ} (pos : 0 < q) :
    |(a : ℚ) - n / q| ≤ 1 ↔ a * q ≤ n + q ∧ n ≤ (a + 1) * q := by
  have pos' : (0 : ℚ) < q := Nat.cast_pos.mpr pos
  rw [abs_sub_le_iff, sub_le_iff_le_add', sub_le_iff_le_add']
  refine and_congr ?_ ?_
  · rw [← mul_le_mul_iff_left₀ pos', add_mul, div_mul_cancel₀ _ pos'.ne', one_mul]
    exact_mod_cast Iff.rfl
  · rw [div_le_iff₀ pos']
    exact_mod_cast Iff.rfl

/-- The conversions are within one of the exact ones, and the way back leads to the ticks or to one less. -/
structure KeepsTime (usec ticks : BitVec 64) : Prop where
  ticksClose : |((usecToTicks usec).toNat : ℚ) - usec.toNat * 32768 / 10 ^ 6| ≤ 1
  usecClose : |((ticksToUsec ticks).toNat : ℚ) - ticks.toNat * 10 ^ 6 / 32768| ≤ 1
  back : usecToTicks (ticksToUsec ticks) = ticks ∨ usecToTicks (ticksToUsec ticks) = ticks - 1

/-- Microseconds: every 30 of them are 265/15625 of a tick too few. -/
theorem usecToTicks_close_iff (usec : BitVec 64) :
    |((usecToTicks usec).toNat : ℚ) - usec.toNat * 32768 / 10 ^ 6| ≤ 1 ↔
      265 * (usec.toNat / 30) ≤ 15625 + 512 * (usec.toNat % 30) := by
  have cleared := abs_sub_div_le_one_iff (a := (usecToTicks usec).toNat) (n := usec.toNat * 32768)
    (show 0 < 10 ^ 6 by decide)
  simp only [Nat.cast_mul, Nat.cast_pow, Nat.cast_ofNat] at cleared
  rw [cleared, toNat_usecToTicks]
  omega

/-- Ticks: every one of them is 265/512 of a microsecond short. -/
theorem ticksToUsec_close_iff {ticks : BitVec 64} (fits : ticks.toNat * 30 < 2 ^ 64) :
    |((ticksToUsec ticks).toNat : ℚ) - ticks.toNat * 10 ^ 6 / 32768| ≤ 1 ↔ ticks.toNat ≤ 1 := by
  have cleared := abs_sub_div_le_one_iff (a := (ticksToUsec ticks).toNat) (n := ticks.toNat * 10 ^ 6)
    (show 0 < 32768 by decide)
  simp only [Nat.cast_mul, Nat.cast_pow, Nat.cast_ofNat] at cleared
  rw [cleared, toNat_ticksToUsec fits]
  omega

/-- The time is kept where next to none of it has passed. -/
theorem keepsTime_iff (usec ticks : BitVec 64) (fits : ticks.toNat * 30 < 2 ^ 64) :
    KeepsTime usec ticks ↔ 265 * (usec.toNat / 30) ≤ 15625 + 512 * (usec.toNat % 30) ∧ ticks.toNat ≤ 1 := by
  constructor
  · rintro ⟨close, close', -⟩
    exact ⟨(usecToTicks_close_iff usec).mp close, (ticksToUsec_close_iff fits).mp close'⟩
  · rintro ⟨early, few⟩
    exact ⟨(usecToTicks_close_iff usec).mpr early, (ticksToUsec_close_iff fits).mpr few,
      .inl (usecToTicks_ticksToUsec fits)⟩

/-- The last time at which the ticks are within one: 3449 microseconds. -/
theorem keepsTime_early : (1#64).toNat * 30 < 2 ^ 64 ∧ KeepsTime 3449 1 :=
  ⟨by decide, (keepsTime_iff 3449 1 (by decide)).mpr (by decide)⟩

/-- A second has 33333 ticks. -/
theorem not_keepsTime : ¬ ∀ usec ticks : BitVec 64, ticks.toNat * 30 < 2 ^ 64 → KeepsTime usec ticks := by
  intro all
  have close := (usecToTicks_close_iff 1000000).mp (all 1000000 0 (by decide)).ticksClose
  exact absurd close (by decide)

end RiscvVp.RealClint
