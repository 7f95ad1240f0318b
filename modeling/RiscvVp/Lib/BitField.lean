/-
# RiscvVp.Lib.BitField -- bit fields and masked writes

A C bit field of a register is an offset and a width; a write-masked register takes
the written bits its mask allows and keeps the others.  Both are described bit by bit
(`getLsbD_set`, `getLsbD_maskedWrite`), which is all that frame arguments need.
-/
import Mathlib.Data.BitVec

namespace RiscvVp.Lib

set_option autoImplicit false

variable {w len : Nat}

/-- The bits `lo .. lo + len - 1` of a register. -/
structure Field (len : Nat) where
  lo : Nat
deriving DecidableEq

namespace Field

def get (f : Field len) (x : BitVec w) : BitVec len := x.extractLsb' f.lo len

def set (f : Field len) (v : BitVec len) (x : BitVec w) : BitVec w :=
  (x &&& ~~~((BitVec.allOnes len).setWidth w <<< f.lo)) ||| (v.setWidth w <<< f.lo)

/-- The field has its bits inside a register of width `w`. -/
def Fits (f : Field len) (w : Nat) : Prop := f.lo + len ≤ w

instance (f : Field len) (w : Nat) : Decidable (f.Fits w) :=
  inferInstanceAs (Decidable (_ ≤ _))

def Covers (f : Field len) (i : Nat) : Prop := f.lo ≤ i ∧ i < f.lo + len

instance (f : Field len) (i : Nat) : Decidable (f.Covers i) :=
  inferInstanceAs (Decidable (_ ∧ _))

theorem getLsbD_get (f : Field len) (x : BitVec w) (i : Nat) :
    (f.get x).getLsbD i = (decide (i < len) && x.getLsbD (f.lo + i)) := by
  simp [get]

theorem getLsbD_set (f : Field len) (v : BitVec len) (x : BitVec w) (i : Nat) :
    (f.set v x).getLsbD i =
      if f.Covers i then decide (i < w) && v.getLsbD (i - f.lo) else x.getLsbD i := by
  by_cases small : i < w
  case neg =>
    have large : w ≤ i := Nat.le_of_not_lt small
    simp [BitVec.getLsbD_of_ge _ i large, small]
  simp only [set, BitVec.getLsbD_or, BitVec.getLsbD_and, BitVec.getLsbD_not,
    BitVec.getLsbD_shiftLeft, BitVec.getLsbD_setWidth, BitVec.getLsbD_allOnes]
  have shifted : i - f.lo < w := Nat.lt_of_le_of_lt (Nat.sub_le _ _) small
  split
  case isTrue covered =>
    have low : ¬ i < f.lo := Nat.not_lt.mpr covered.1
    have high : i - f.lo < len := by have := covered.2; omega
    simp [small, shifted, low, high]
  case isFalse uncovered =>
    by_cases low : i < f.lo
    · simp [small, low]
    · have high : ¬ i - f.lo < len := fun high => uncovered ⟨Nat.le_of_not_lt low, by omega⟩
      simp [small, high, BitVec.getLsbD_of_ge v _ (Nat.le_of_not_lt high)]

theorem get_set {f : Field len} (fits : f.Fits w) (v : BitVec len) (x : BitVec w) :
    f.get (f.set v x) = v := by
  ext i bound
  have inside : f.lo + i < w := by unfold Fits at fits; omega
  have covered : f.Covers (f.lo + i) := ⟨Nat.le_add_right _ _, by omega⟩
  rw [← BitVec.getLsbD_eq_getElem, ← BitVec.getLsbD_eq_getElem, getLsbD_get, getLsbD_set,
    if_pos covered]
  simp [bound, inside]

/-- Two fields without a common bit. -/
def Disjoint {len' : Nat} (f : Field len) (g : Field len') : Prop :=
  f.lo + len ≤ g.lo ∨ g.lo + len' ≤ f.lo

instance {len' : Nat} (f : Field len) (g : Field len') : Decidable (f.Disjoint g) :=
  inferInstanceAs (Decidable (_ ∨ _))

theorem get_set_of_disjoint {len' : Nat} {f : Field len} {g : Field len'} (apart : f.Disjoint g)
    (v : BitVec len') (x : BitVec w) : f.get (g.set v x) = f.get x := by
  ext i bound
  have uncovered : ¬ g.Covers (f.lo + i) := by
    unfold Disjoint at apart
    unfold Covers
    omega
  rw [← BitVec.getLsbD_eq_getElem, ← BitVec.getLsbD_eq_getElem, getLsbD_get, getLsbD_get,
    getLsbD_set, if_neg uncovered]

/-- A field is known by its bits. -/
theorem get_congr {f : Field len} {x y : BitVec w}
    (same : ∀ i, f.Covers i → x.getLsbD i = y.getLsbD i) : f.get x = f.get y := by
  ext i bound
  rw [← BitVec.getLsbD_eq_getElem, ← BitVec.getLsbD_eq_getElem, getLsbD_get, getLsbD_get,
    same (f.lo + i) ⟨Nat.le_add_right _ _, by omega⟩]

end Field

/-! ## Masked writes -/

/-- `x = (x & ~mask) | (value & mask)`. -/
def maskedWrite (x value mask : BitVec w) : BitVec w := (x &&& ~~~mask) ||| (value &&& mask)

theorem getLsbD_maskedWrite (x value mask : BitVec w) (i : Nat) :
    (maskedWrite x value mask).getLsbD i =
      if mask.getLsbD i then value.getLsbD i else x.getLsbD i := by
  have outside : w ≤ i → x.getLsbD i = false := BitVec.getLsbD_of_ge x i
  simp only [maskedWrite, BitVec.getLsbD_or, BitVec.getLsbD_and, BitVec.getLsbD_not]
  by_cases small : i < w <;> cases mask.getLsbD i <;> simp_all

end RiscvVp.Lib
