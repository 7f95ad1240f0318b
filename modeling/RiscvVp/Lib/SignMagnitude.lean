/-
# RiscvVp.Lib.SignMagnitude -- words with a sign and a magnitude

The top bit of a word is its sign and the bits below it are its magnitude, as in the formats of floating-point
numbers, whose order is that of their `value`s.  The two zeros have the same value; `rank` puts the negative one
below the other, and no two words have the same rank.
-/
import Mathlib.Data.BitVec

namespace RiscvVp.Lib.SignMagnitude

set_option autoImplicit false

variable {w : Nat}

def magnitude (a : BitVec w) : Nat := a.toNat % 2 ^ (w - 1)

def value (a : BitVec w) : Int := if a.msb then -(magnitude a : Int) else magnitude a

def rank (a : BitVec w) : Int := if a.msb then -(magnitude a : Int) - 1 else magnitude a

def least (a b : BitVec w) : BitVec w := if rank a ≤ rank b then a else b

def greatest (a b : BitVec w) : BitVec w := if rank b ≤ rank a then a else b

variable (a b : BitVec w)

theorem toNat_eq : a.toNat = magnitude a + if a.msb then 2 ^ (w - 1) else 0 := by
  have bound := a.isLt
  have top : a.msb = decide (2 ^ (w - 1) ≤ a.toNat) := BitVec.msb_eq_decide a
  unfold magnitude
  rw [top]
  cases w with
  | zero =>
    rw [BitVec.eq_nil a]
    rfl
  | succ v =>
    rw [Nat.add_sub_cancel] at top ⊢
    rw [Nat.pow_succ] at bound
    by_cases high : 2 ^ v ≤ a.toNat
    case pos =>
      rw [if_pos (decide_eq_true high), Nat.mod_eq_sub_mod high, Nat.mod_eq_of_lt (by omega)]
      omega
    case neg =>
      rw [if_neg (by simpa using high), Nat.mod_eq_of_lt (by omega)]
      rfl

theorem eq_of_parts {a b : BitVec w} (sign : a.msb = b.msb) (same : magnitude a = magnitude b) : a = b := by
  apply BitVec.eq_of_toNat_eq
  rw [toNat_eq a, toNat_eq b, sign, same]

theorem rank_injective : Function.Injective (rank : BitVec w → Int) := by
  intro a b same
  unfold rank at same
  cases signA : a.msb <;> cases signB : b.msb <;> simp only [signA, signB, if_true, Bool.false_eq_true, if_false] at same
  case false.false => exact eq_of_parts (signA.trans signB.symm) (by omega)
  case false.true => omega
  case true.false => omega
  case true.true => exact eq_of_parts (signA.trans signB.symm) (by omega)

/-- The order by value, with the sign where the values are the same. -/
def Precedes : Prop := value a < value b ∨ (value a = value b ∧ a.msb = true)

instance : Decidable (Precedes a b) := inferInstanceAs (Decidable (_ ∨ _))

theorem precedes_iff : Precedes a b ↔ rank a < rank b ∨ (a = b ∧ a.msb = true) := by
  have zero (sign : a.msb = b.msb) (same : magnitude a = magnitude b) : a = b := eq_of_parts sign same
  unfold Precedes value rank
  cases signA : a.msb <;> cases signB : b.msb <;> simp only [if_true, Bool.false_eq_true, if_false, and_true, and_false,
    or_false]
  case false.true => omega
  case true.false =>
    have apart : a ≠ b := fun same => by rw [same, signB] at signA; cases signA
    rw [or_iff_left apart]
    omega
  case true.true =>
    constructor
    · rintro (below | same)
      · exact .inl (by omega)
      · exact .inr (zero (signA.trans signB.symm) (by omega))
    · rintro (below | same)
      · exact .inl (by omega)
      · exact .inr (by rw [same])

/-- To choose by value and sign is to choose by rank. -/
theorem ite_precedes_least : (if Precedes a b then a else b) = least a b := by
  unfold least
  by_cases first : Precedes a b
  case pos =>
    rw [if_pos first]
    rcases (precedes_iff a b).mp first with below | ⟨same, -⟩
    · rw [if_pos below.le]
    · rw [same, if_pos (le_refl _)]
  case neg =>
    rw [if_neg first]
    split
    case isTrue below =>
      rcases below.lt_or_eq with less | same
      · exact absurd ((precedes_iff a b).mpr (.inl less)) first
      · exact (rank_injective same).symm
    case isFalse => rfl

theorem ite_precedes_greatest : (if Precedes b a then a else b) = greatest a b := by
  unfold greatest
  by_cases first : Precedes b a
  case pos =>
    rw [if_pos first]
    rcases (precedes_iff b a).mp first with below | ⟨same, -⟩
    · rw [if_pos below.le]
    · rw [same, if_pos (le_refl _)]
  case neg =>
    rw [if_neg first]
    split
    case isTrue below =>
      rcases below.lt_or_eq with less | same
      · exact absurd ((precedes_iff b a).mpr (.inl less)) first
      · exact rank_injective same
    case isFalse => rfl

theorem least_comm : least a b = least b a := by
  unfold least
  rcases lt_trichotomy (rank a) (rank b) with below | same | above
  · rw [if_pos below.le, if_neg (not_le.mpr below)]
  · rw [rank_injective same]
  · rw [if_neg (not_le.mpr above), if_pos above.le]

theorem greatest_comm : greatest a b = greatest b a := by
  unfold greatest
  rcases lt_trichotomy (rank a) (rank b) with below | same | above
  · rw [if_neg (not_le.mpr below), if_pos below.le]
  · rw [rank_injective same]
  · rw [if_pos above.le, if_neg (not_le.mpr above)]

/-- The top bit by its mask. -/
theorem and_twoPow_ne_zero (positive : 0 < w) : (a &&& BitVec.twoPow w (w - 1) != 0) = a.msb := by
  have top : BitVec.twoPow w (w - 1) ≠ 0 := by
    intro zero
    have none := congrArg BitVec.toNat zero
    rw [BitVec.toNat_twoPow, Nat.mod_eq_of_lt (Nat.pow_lt_pow_right (by decide) (by omega))] at none
    exact absurd none (Nat.two_pow_pos _).ne'
  rw [BitVec.and_twoPow, BitVec.msb_eq_getLsbD_last]
  cases a.getLsbD (w - 1)
  case false => rfl
  case true => exact bne_iff_ne.mpr top

end RiscvVp.Lib.SignMagnitude
