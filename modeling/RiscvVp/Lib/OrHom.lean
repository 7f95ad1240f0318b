/-
# RiscvVp.Lib.OrHom -- bit-vector functions that act bit by bit

Field extractors, immediate scramblers and instruction builders only move bits
about and set some: `f (x ||| y) = f x ||| f y`.  Such a function is known once it
is known at zero and at the single bits (`OrHom.ext`), so an identity between two
of them is a finite check, however the two are written.
-/
import Mathlib.Data.BitVec

namespace RiscvVp.Lib

set_option autoImplicit false

variable {l m n : Nat}

/-- A function that distributes over the bitwise disjunction.  It need not map zero
to zero: setting fixed bits is allowed. -/
class OrHom (f : BitVec m → BitVec n) : Prop where
  map_or : ∀ x y, f (x ||| y) = f x ||| f y

namespace OrHom

/-! ## The functions -/

instance instId : OrHom (fun x : BitVec n => x) := ⟨fun _ _ => rfl⟩

instance instConst (c : BitVec n) : OrHom (fun _ : BitVec m => c) :=
  ⟨fun _ _ => BitVec.or_self.symm⟩

variable {f g : BitVec m → BitVec n}

instance instOr [OrHom f] [OrHom g] : OrHom fun x => f x ||| g x where
  map_or x y := by
    rw [map_or (f := f), map_or (f := g)]
    ext i
    simp only [BitVec.getElem_or]
    cases (f x)[i] <;> cases (f y)[i] <;> cases (g x)[i] <;> simp

instance instAnd [OrHom f] (mask : BitVec n) : OrHom fun x => f x &&& mask where
  map_or x y := by
    rw [map_or (f := f)]
    ext i
    simp only [BitVec.getElem_or, BitVec.getElem_and]
    cases mask[i] <;> simp

instance instShiftLeft [OrHom f] (k : Nat) : OrHom fun x => f x <<< k where
  map_or x y := by
    rw [map_or (f := f), BitVec.shiftLeft_or_distrib]

instance instShiftRight [OrHom f] (k : Nat) : OrHom fun x => f x >>> k where
  map_or x y := by
    rw [map_or (f := f), BitVec.ushiftRight_or_distrib]

instance instSshiftRight [OrHom f] (k : Nat) : OrHom fun x => (f x).sshiftRight k where
  map_or x y := by
    rw [map_or (f := f), BitVec.sshiftRight_or_distrib]

instance instSetWidthBare (k : Nat) : OrHom (BitVec.setWidth k : BitVec n → BitVec k) :=
  ⟨fun _ _ => BitVec.setWidth_or⟩

instance instSetWidth [OrHom f] (k : Nat) : OrHom fun x => (f x).setWidth k where
  map_or x y := by
    rw [map_or (f := f), BitVec.setWidth_or]

instance instSignExtend [OrHom f] (k : Nat) : OrHom fun x => (f x).signExtend k where
  map_or x y := by
    rw [map_or (f := f), BitVec.signExtend_or]

instance instExtractBare (start k : Nat) :
    OrHom (BitVec.extractLsb' start k : BitVec n → BitVec k) :=
  ⟨fun _ _ => BitVec.extractLsb'_or⟩

instance instExtract [OrHom f] (start k : Nat) : OrHom fun x => (f x).extractLsb' start k where
  map_or x y := by
    rw [map_or (f := f), BitVec.extractLsb'_or]

instance instAppend {k : Nat} {g : BitVec m → BitVec k} [OrHom f] [OrHom g] :
    OrHom fun x => f x ++ g x where
  map_or x y := by
    rw [map_or (f := f), map_or (f := g), BitVec.or_append]

/-! ## Two of them agree as soon as they agree on single bits -/

theorem eq_of_low_bits [OrHom f] [OrHom g]
    (bits : ∀ i : Fin (m + 1), f (BitVec.twoPow m i) = g (BitVec.twoPow m i)) (x : BitVec m)
    (k : Nat) : k ≤ m → f ((x.setWidth k).setWidth m) = g ((x.setWidth k).setWidth m) := by
  induction k with
  | zero =>
      intro _
      have zero : (x.setWidth 0).setWidth m = BitVec.twoPow m m := by
        apply BitVec.eq_of_toNat_eq
        simp [Nat.mod_one]
      rw [zero]
      exact bits (Fin.last m)
  | succ k ih =>
      intro bound
      have lower := ih (by omega)
      cases bit : x.getLsbD k with
      | false =>
          rw [BitVec.setWidth_setWidth_succ_eq_setWidth_setWidth_of_getLsbD_false bit]
          exact lower
      | true =>
          rw [BitVec.setWidth_setWidth_succ_eq_setWidth_setWidth_or_twoPow_of_getLsbD_true bit,
            map_or (f := f), map_or (f := g), lower]
          exact congrArg _ (bits ⟨k, by omega⟩)

/-- Functions that act bit by bit are equal when they agree on every single bit and
on zero, here written as the power that does not fit. -/
theorem ext [OrHom f] [OrHom g]
    (bits : ∀ i : Fin (m + 1), f (BitVec.twoPow m i) = g (BitVec.twoPow m i)) :
    ∀ x : BitVec m, f x = g x := by
  intro x
  have whole := eq_of_low_bits bits x m (Nat.le_refl m)
  rwa [BitVec.setWidth_eq, BitVec.setWidth_eq] at whole

end OrHom

end RiscvVp.Lib
