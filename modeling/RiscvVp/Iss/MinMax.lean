/-
# RiscvVp.Iss.MinMax -- the minimum and the maximum of two floating-point numbers

`FMIN` and `FMAX` of both precisions ask the library whether the first operand comes first, and take the second
where it does not.  Of two NaNs the canonical one is made, but a single NaN is only passed over where it is the
first operand: the second is taken without a look.  The library is a parameter, and its comparisons are what IEEE
says they are.
-/
import RiscvVp.Iss.FpFlags
import RiscvVp.Lib.SignMagnitude

namespace RiscvVp

set_option autoImplicit false

open Lib SignMagnitude

/-! ## The comparisons of the library -/

section Format

variable {w : Nat}

/-- A comparison with a NaN is false; the others are by value. -/
structure Compares (isNaN : BitVec w → Bool) (lt eq : BitVec w → BitVec w → Bool × BitVec 8) : Prop where
  lt_iff : ∀ a b, (lt a b).1 = true ↔ isNaN a = false ∧ isNaN b = false ∧ value a < value b
  eq_iff : ∀ a b, (eq a b).1 = true ↔ isNaN a = false ∧ isNaN b = false ∧ value a = value b

structure SoftFloat.Ordered (lib : SoftFloat) : Prop where
  f32 : Compares F32.isNaN lib.f32LtQuiet lib.f32Eq
  f64 : Compares F64.isNaN lib.f64LtQuiet lib.f64Eq

/-! ## What the result should be, and what it is -/

variable (isNaN : BitVec w → Bool) (canonical : BitVec w) (best : BitVec w → BitVec w → BitVec w)
  (first : BitVec w → BitVec w → Bool)

/-- The better of two numbers, the number beside a NaN, and the canonical NaN for two. -/
def preferred (a b : BitVec w) : BitVec w :=
  if isNaN a && isNaN b then canonical
  else if isNaN a then b
  else if isNaN b then a
  else best a b

/-- What the instructions write. -/
def selected (a b : BitVec w) : BitVec w :=
  if isNaN a && isNaN b then canonical else if first a b then a else b

/-- A way to choose that knows numbers only. -/
structure Chooses : Prop where
  nan : ∀ a b, isNaN a = true ∨ isNaN b = true → first a b = false
  number : ∀ a b, isNaN a = false → isNaN b = false → (if first a b then a else b) = best a b
  comm : ∀ a b, best a b = best b a

variable {isNaN canonical best first} {lt eq : BitVec w → BitVec w → Bool × BitVec 8} {negative : BitVec w → Bool}

/-- What the comparisons of an instruction come to. -/
theorem precedes_of_compares (compares : Compares isNaN lt eq) (sign : ∀ a, negative a = a.msb) (a b : BitVec w) :
    ((lt a b).1 || (eq a b).1 && negative a) = true ↔ isNaN a = false ∧ isNaN b = false ∧ Precedes a b := by
  unfold Precedes
  rw [Bool.or_eq_true, Bool.and_eq_true, compares.lt_iff, compares.eq_iff, sign]
  tauto

theorem chooses_least (compares : Compares isNaN lt eq) (sign : ∀ a, negative a = a.msb) :
    Chooses isNaN least fun a b => (lt a b).1 || (eq a b).1 && negative a where
  nan a b nan := by
    rw [← Bool.not_eq_true, precedes_of_compares compares sign]
    rintro ⟨numberA, numberB, -⟩
    rcases nan with nan | nan
    · rw [nan] at numberA
      cases numberA
    · rw [nan] at numberB
      cases numberB
  number a b numberA numberB := by
    have same : ((lt a b).1 || (eq a b).1 && negative a) = true ↔ Precedes a b := by
      rw [precedes_of_compares compares sign]
      exact (and_iff_right numberA).trans (and_iff_right numberB)
    rw [← ite_precedes_least a b]
    exact ite_congr (propext same) (fun _ => rfl) fun _ => rfl
  comm := least_comm

theorem chooses_greatest (compares : Compares isNaN lt eq) (sign : ∀ a, negative a = a.msb) :
    Chooses isNaN greatest fun a b => (lt b a).1 || (eq b a).1 && negative b where
  nan a b nan := by
    rw [← Bool.not_eq_true, precedes_of_compares compares sign]
    rintro ⟨numberB, numberA, -⟩
    rcases nan with nan | nan
    · rw [nan] at numberA
      cases numberA
    · rw [nan] at numberB
      cases numberB
  number a b numberA numberB := by
    have same : ((lt b a).1 || (eq b a).1 && negative b) = true ↔ Precedes b a := by
      rw [precedes_of_compares compares sign]
      exact (and_iff_right numberB).trans (and_iff_right numberA)
    rw [← ite_precedes_greatest a b]
    exact ite_congr (propext same) (fun _ => rfl) fun _ => rfl
  comm := greatest_comm

/-- The result is right but for a number and a NaN, in this order. -/
theorem selected_eq_iff (chooses : Chooses isNaN best first) (a b : BitVec w) :
    selected isNaN canonical first a b = preferred isNaN canonical best a b ↔
      ¬ (isNaN a = false ∧ isNaN b = true) := by
  unfold selected preferred
  cases nanA : isNaN a with
  | true =>
    cases nanB : isNaN b with
    | true => exact iff_of_true rfl fun ⟨number, _⟩ => nomatch number
    | false =>
      have second : first a b = false := chooses.nan a b (.inl nanA)
      simp [second]
  | false =>
    cases nanB : isNaN b with
    | true =>
      have second : first a b = false := chooses.nan a b (.inr nanB)
      have apart : b ≠ a := fun same => by rw [same, nanA] at nanB; cases nanB
      simp [second, apart]
    | false =>
      have chosen := chooses.number a b nanA nanB
      simpa using chosen

/-- The order of the operands shows where exactly one is a NaN. -/
theorem selected_comm_iff (chooses : Chooses isNaN best first) (a b : BitVec w) :
    selected isNaN canonical first b a = selected isNaN canonical first a b ↔ isNaN a = isNaN b := by
  unfold selected
  cases nanA : isNaN a with
  | true =>
    cases nanB : isNaN b with
    | true => exact iff_of_true rfl rfl
    | false =>
      have apart : a ≠ b := fun same => by rw [same, nanB] at nanA; cases nanA
      have second : first a b = false := chooses.nan a b (.inl nanA)
      have second' : first b a = false := chooses.nan b a (.inr nanA)
      simp [second, second', apart]
  | false =>
    cases nanB : isNaN b with
    | true =>
      have apart : a ≠ b := fun same => by rw [same, nanB] at nanA; cases nanA
      have second : first a b = false := chooses.nan a b (.inr nanB)
      have second' : first b a = false := chooses.nan b a (.inl nanB)
      simp [second, second', apart]
    | false =>
      have chosen := chooses.number a b nanA nanB
      have chosen' := chooses.number b a nanB nanA
      simp only [Bool.and_self, Bool.false_eq_true, if_false, iff_true]
      rw [chosen, chosen', chooses.comm]

end Format

theorem F32.isNegative_eq (a : BitVec 32) : F32.isNegative a = a.msb := and_twoPow_ne_zero a (by decide)

theorem F64.isNegative_eq (a : BitVec 64) : F64.isNegative a = a.msb := and_twoPow_ne_zero a (by decide)

theorem boxF32_injective : Function.Injective boxF32 := by
  intro a b same
  have low (x : BitVec 32) : (boxF32 x).setWidth 32 = x := by
    have mask : (0xFFFFFFFF00000000#64).setWidth 32 = 0#32 := by decide
    unfold boxF32
    rw [BitVec.setWidth_or, BitVec.setWidth_setWidth_of_le _ (by decide), BitVec.setWidth_eq]
    exact (congrArg (x ||| ·) mask).trans BitVec.or_zero
  rw [← low a, ← low b, same]

namespace Iss

variable {isa : Isa} {World : Type}

/-! ## The instructions -/

inductive MinMax where
  | fminS | fmaxS | fminD | fmaxD

namespace MinMax

def mapping : MinMax → Mapping
  | .fminS => .fminS
  | .fmaxS => .fmaxS
  | .fminD => .fminD
  | .fmaxD => .fmaxD

/-- Whether the operand in a register is a NaN: a single that is not boxed is one. -/
def isNaN (op : MinMax) (content : BitVec 64) : Bool :=
  match op with
  | .fminS | .fmaxS => F32.isNaN (unboxF32 content)
  | .fminD | .fmaxD => F64.isNaN content

/-- What the result register should hold. -/
def wanted (op : MinMax) (a b : BitVec 64) : BitVec 64 :=
  match op with
  | .fminS => boxF32 (preferred F32.isNaN F32.defaultNaN least (unboxF32 a) (unboxF32 b))
  | .fmaxS => boxF32 (preferred F32.isNaN F32.defaultNaN greatest (unboxF32 a) (unboxF32 b))
  | .fminD => preferred F64.isNaN F64.defaultNaN least a b
  | .fmaxD => preferred F64.isNaN F64.defaultNaN greatest a b

end MinMax

section Frame

variable {s t : Iss isa World}

theorem requireIsa_ok {ext : Word isa} (ran : (requireIsa ext).run s = (.ok (), t)) : t = s := by
  cases isa with
  | rv64 =>
    cases ran
    rfl
  | rv32 =>
    unfold requireIsa at ran
    rw [run_readCsr_bind, Exec.run_ite] at ran
    split at ran
    case isTrue => cases ran
    case isFalse =>
      cases ran
      rfl

theorem fpPrepareInstr_ok (ran : fpPrepareInstr.run s = (.ok (), t)) : t = s := by
  unfold fpPrepareInstr fpRequireNotOff at ran
  rw [Exec.run_read_bind] at ran
  by_cases clear : s.softfloatExceptionFlags = 0
  case pos =>
    rw [run_assert_bind s clear, run_readField_bind, Exec.run_ite] at ran
    split at ran
    case isTrue => cases ran
    case isFalse =>
      cases ran
      rfl
  case neg =>
    rw [assert, if_neg clear] at ran
    cases ran

theorem fpFinishInstr_ok (ran : fpFinishInstr.run s = (.ok (), t)) : t.fpRegs = s.fpRegs := by
  have dirtied : fpSetDirty.run s = (.ok (), (fpSetDirty.run s).2) := rfl
  have same : (fpSetDirty.run s).2.fpRegs = s.fpRegs := rfl
  unfold fpFinishInstr at ran
  rw [Exec.run_bind_ok dirtied] at ran
  unfold fpUpdateExceptionFlags at ran
  rw [Exec.run_read_bind, Exec.run_ite] at ran
  split at ran
  case isTrue =>
    cases ran
    rfl
  case isFalse =>
    cases ran
    exact same

/-- The comparison of the operands, and the flags it leaves. -/
theorem before_ok {lt eq : Bool × BitVec 8} {negative first : Bool}
    (ran : (before lt eq negative).run s = (.ok first, t)) :
    first = (lt.1 || eq.1 && negative) ∧ t.fpRegs = s.fpRegs := by
  obtain ⟨smaller, flags⟩ := lt
  cases smaller with
  | true =>
    cases ran
    exact ⟨rfl, rfl⟩
  | false =>
    cases ran
    exact ⟨rfl, rfl⟩

/-- The comparison, the result and the end of an instruction. -/
theorem choose_ok {field : BitVec 32} {lt eq : Bool × BitVec 8} {negative : Bool} {result : Bool → BitVec 64}
    (ran : (do
      let first ← before lt eq negative
      writeF64 field (result first)
      fpFinishInstr : IssM isa World Unit).run s = (.ok (), t)) :
    t.fpRegs (regIndex field) = result (lt.1 || eq.1 && negative) := by
  obtain ⟨first, u, compared, ran⟩ := Exec.run_bind_eq_ok.mp ran
  obtain ⟨rfl, -⟩ := before_ok compared
  rw [fpFinishInstr_ok (s := u.setFpReg (regIndex field) _) ran]
  exact if_pos rfl

variable {instr : Instruction}

theorem f32Select_ok {lt eq : BitVec 32 → BitVec 32 → Bool × BitVec 8} (negative : BitVec 32 → BitVec 32 → Bool)
    (ran : (f32Select instr fun a b => before (lt a b) (eq a b) (negative a b)).run s = (.ok (), t)) :
    t.fpRegs (regIndex instr.rd) =
      boxF32 (selected F32.isNaN F32.defaultNaN (fun a b => (lt a b).1 || (eq a b).1 && negative a b)
        (unboxF32 (s.fpRegs (regIndex instr.rs1))) (unboxF32 (s.fpRegs (regIndex instr.rs2)))) := by
  obtain ⟨_, u, required, ran⟩ := Exec.run_bind_eq_ok.mp ran
  cases requireIsa_ok required
  obtain ⟨_, u, prepared, ran⟩ := Exec.run_bind_eq_ok.mp ran
  cases fpPrepareInstr_ok prepared
  exact choose_ok ran

theorem f64Select_ok {lt eq : BitVec 64 → BitVec 64 → Bool × BitVec 8} (negative : BitVec 64 → BitVec 64 → Bool)
    (ran : (f64Select instr fun a b => before (lt a b) (eq a b) (negative a b)).run s = (.ok (), t)) :
    t.fpRegs (regIndex instr.rd) =
      selected F64.isNaN F64.defaultNaN (fun a b => (lt a b).1 || (eq a b).1 && negative a b)
        (s.fpRegs (regIndex instr.rs1)) (s.fpRegs (regIndex instr.rs2)) := by
  obtain ⟨_, u, required, ran⟩ := Exec.run_bind_eq_ok.mp ran
  cases requireIsa_ok required
  obtain ⟨_, u, prepared, ran⟩ := Exec.run_bind_eq_ok.mp ran
  cases fpPrepareInstr_ok prepared
  exact choose_ok ran

end Frame

section MinMax

variable {lib : SoftFloat} {a b : BitVec 64}

/-- What the result register holds. -/
def MinMax.result (lib : SoftFloat) (op : MinMax) (a b : BitVec 64) : BitVec 64 :=
  let f32Before (a b : BitVec 32) : Bool := (lib.f32LtQuiet a b).1 || (lib.f32Eq a b).1 && F32.isNegative a
  let f64Before (a b : BitVec 64) : Bool := (lib.f64LtQuiet a b).1 || (lib.f64Eq a b).1 && F64.isNegative a
  match op with
  | .fminS => boxF32 (selected F32.isNaN F32.defaultNaN f32Before (unboxF32 a) (unboxF32 b))
  | .fmaxS => boxF32 (selected F32.isNaN F32.defaultNaN (fun a b => f32Before b a) (unboxF32 a) (unboxF32 b))
  | .fminD => selected F64.isNaN F64.defaultNaN f64Before a b
  | .fmaxD => selected F64.isNaN F64.defaultNaN (fun a b => f64Before b a) a b

theorem exec_minMax {plat : Platform World} {op : MinMax} {instr : Instruction} {s t : Iss isa World}
    (ran : (exec instr plat op.mapping).run s = (.ok (), t)) :
    t.fpRegs (regIndex instr.rd) =
      op.result plat.softfloat (s.fpRegs (regIndex instr.rs1)) (s.fpRegs (regIndex instr.rs2)) := by
  cases op with
  | fminS => exact f32Select_ok (fun a _ => F32.isNegative a) ran
  | fmaxS => exact f32Select_ok (fun _ b => F32.isNegative b) ran
  | fminD => exact f64Select_ok (fun a _ => F64.isNegative a) ran
  | fmaxD => exact f64Select_ok (fun _ b => F64.isNegative b) ran

theorem result_eq_iff (ordered : lib.Ordered) (op : MinMax) :
    op.result lib a b = op.wanted a b ↔ ¬ (op.isNaN a = false ∧ op.isNaN b = true) := by
  cases op with
  | fminS =>
    exact boxF32_injective.eq_iff.trans (selected_eq_iff (chooses_least ordered.f32 F32.isNegative_eq) _ _)
  | fmaxS =>
    exact boxF32_injective.eq_iff.trans (selected_eq_iff (chooses_greatest ordered.f32 F32.isNegative_eq) _ _)
  | fminD => exact selected_eq_iff (chooses_least ordered.f64 F64.isNegative_eq) _ _
  | fmaxD => exact selected_eq_iff (chooses_greatest ordered.f64 F64.isNegative_eq) _ _

theorem result_comm_iff (ordered : lib.Ordered) (op : MinMax) :
    op.result lib b a = op.result lib a b ↔ op.isNaN a = op.isNaN b := by
  cases op with
  | fminS =>
    exact boxF32_injective.eq_iff.trans (selected_comm_iff (chooses_least ordered.f32 F32.isNegative_eq) _ _)
  | fmaxS =>
    exact boxF32_injective.eq_iff.trans (selected_comm_iff (chooses_greatest ordered.f32 F32.isNegative_eq) _ _)
  | fminD => exact selected_comm_iff (chooses_least ordered.f64 F64.isNegative_eq) _ _
  | fmaxD => exact selected_comm_iff (chooses_greatest ordered.f64 F64.isNegative_eq) _ _

/-- The result is right exactly where no number is followed by a NaN, and the same for both orders of the operands
exactly where both or none is a NaN. -/
theorem minMax_iff {plat : Platform World} (ordered : plat.softfloat.Ordered) {op : MinMax} {instr : Instruction}
    {s t : Iss isa World} (ran : (exec instr plat op.mapping).run s = (.ok (), t)) {a b : BitVec 64}
    (operands : s.fpRegs (regIndex instr.rs1) = a ∧ s.fpRegs (regIndex instr.rs2) = b) :
    (t.fpRegs (regIndex instr.rd) = op.wanted a b ↔ ¬ (op.isNaN a = false ∧ op.isNaN b = true)) ∧
      ∀ {instr' : Instruction} {s' t' : Iss isa World}, (exec instr' plat op.mapping).run s' = (.ok (), t') →
        s'.fpRegs (regIndex instr'.rs1) = b ∧ s'.fpRegs (regIndex instr'.rs2) = a →
        (t'.fpRegs (regIndex instr'.rd) = t.fpRegs (regIndex instr.rd) ↔ op.isNaN a = op.isNaN b) := by
  obtain ⟨rfl, rfl⟩ := operands
  rw [exec_minMax ran]
  refine ⟨result_eq_iff ordered op, fun ran' swapped => ?_⟩
  rw [exec_minMax ran', swapped.1, swapped.2]
  exact result_comm_iff ordered op

/-- A library with the comparisons of IEEE. -/
def ieee : SoftFloat :=
  { (default : SoftFloat) with
    f32LtQuiet := fun a b => (!F32.isNaN a && !F32.isNaN b && decide (value a < value b), 0)
    f32Eq := fun a b => (!F32.isNaN a && !F32.isNaN b && decide (value a = value b), 0)
    f64LtQuiet := fun a b => (!F64.isNaN a && !F64.isNaN b && decide (value a < value b), 0)
    f64Eq := fun a b => (!F64.isNaN a && !F64.isNaN b && decide (value a = value b), 0) }

theorem ieee_ordered : ieee.Ordered := by
  have reads (nanA nanB : Bool) (c : Prop) [Decidable c] :
      (!nanA && !nanB && decide c) = true ↔ nanA = false ∧ nanB = false ∧ c := by
    rw [Bool.and_eq_true, Bool.and_eq_true, decide_eq_true_iff, Bool.not_eq_true', Bool.not_eq_true', and_assoc]
  exact ⟨⟨fun _ _ => reads _ _ _, fun _ _ => reads _ _ _⟩, ⟨fun _ _ => reads _ _ _, fun _ _ => reads _ _ _⟩⟩

def ieeePlatform : Platform Flat := { Flat.platform with softfloat := ieee }

/-- `fmin.d f3, f1, f2` with two operands. -/
def fminCore (a b : BitVec 64) : Iss .rv64 Flat :=
  setFpReg 1 a (setFpReg 2 b ((everywhere 0x2A2081D3).setCsr .mstatus 0x6000))

/-- The two zeros. -/
theorem minMax_zeros :
    ∃ t, (exec 0x2A2081D3 ieeePlatform .fminD).run (fminCore 0 0x8000000000000000) = (.ok (), t) ∧
      t.fpRegs 3 = 0x8000000000000000 := by
  have ran : (exec 0x2A2081D3 ieeePlatform MinMax.fminD.mapping).run (fminCore 0 0x8000000000000000) = (.ok (), _) := rfl
  have right := (minMax_iff (show ieeePlatform.softfloat.Ordered from ieee_ordered) ran ⟨rfl, rfl⟩).1.mpr (by decide)
  exact ⟨_, ran, right.trans (by decide)⟩

/-- The minimum of 1 and a NaN is the NaN. -/
theorem not_minMax : ¬ ∀ (plat : Platform Flat), plat.softfloat.Ordered → ∀ (op : MinMax) (instr : Instruction)
    (s t : Iss .rv64 Flat), (exec instr plat op.mapping).run s = (.ok (), t) →
      t.fpRegs (regIndex instr.rd) =
        op.wanted (s.fpRegs (regIndex instr.rs1)) (s.fpRegs (regIndex instr.rs2)) := by
  intro all
  have ran : (exec 0x2A2081D3 ieeePlatform MinMax.fminD.mapping).run (fminCore 0x3FF0000000000000 F64.defaultNaN) =
      (.ok (), _) := rfl
  have right := all ieeePlatform ieee_ordered .fminD _ _ _ ran
  rw [exec_minMax ran] at right
  exact absurd right (by decide)

end MinMax

end Iss

end RiscvVp
