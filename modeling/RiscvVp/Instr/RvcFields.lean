/-
# RiscvVp.Instr.RvcFields -- what the decoder takes from a word is in the halfword

Each field `decode_compressed` and `expand_compressed` read is a field of the format,
whatever the upper half of the fetched word holds.
-/
import RiscvVp.Instr.BitMoves
import RiscvVp.Instr.Rvc

namespace RiscvVp.Instruction

open RiscvVp.Lib InstructionFactory

set_option autoImplicit false

/-- What a compressed instruction occupies of the fetched word. -/
def halfword (instr : Instruction) : BitVec 16 := instr.setWidth 16

/-! ## Fields of the word are fields of the halfword -/

section Fields

variable {m : Nat} {f : BitVec m → BitVec 32} [OrHom f]

instance (hi lo : Nat) : OrHom fun x => Rvc.bits (halfword (f x)) hi lo := by
  unfold Rvc.bits halfword
  infer_instance

end Fields

theorem quadrant_halfword :
    ∀ instr, quadrant instr = (Rvc.bits (halfword instr) 1 0).setWidth 32 :=
  OrHom.ext (by decide)

theorem cOpcode_halfword :
    ∀ instr, cOpcode instr = (Rvc.bits (halfword instr) 15 13).setWidth 32 :=
  OrHom.ext (by decide)

theorem cFormat_halfword : ∀ instr, cFormat instr = (halfword instr).setWidth 32 :=
  OrHom.ext (g := fun instr => (BitVec.setWidth 16 instr).setWidth 32) (by decide)

theorem cB12_halfword : ∀ instr, cB12 instr = (Rvc.bits (halfword instr) 12 12).setWidth 32 :=
  OrHom.ext (by decide)

theorem cF2High_halfword : ∀ instr, cF2High instr = (Rvc.bits (halfword instr) 11 10).setWidth 32 :=
  OrHom.ext (by decide)

theorem cF2Low_halfword : ∀ instr, cF2Low instr = (Rvc.bits (halfword instr) 6 5).setWidth 32 :=
  OrHom.ext (by decide)

theorem rvc_rd : ∀ instr, Rvc.rd (halfword instr) = cRd instr := by
  unfold Rvc.rd
  exact OrHom.ext (by decide)

theorem rvc_rs2 : ∀ instr, Rvc.rs2 (halfword instr) = cRs2 instr := by
  unfold Rvc.rs2
  exact OrHom.ext (by decide)

theorem short_eq_or : ∀ field : BitVec 3, 8#32 + field.setWidth 32 = field.setWidth 32 ||| 8 := by
  decide

theorem rvc_rs1Short (instr : Instruction) : Rvc.rs1Short (halfword instr) = cRdSmall instr := by
  have bits : ∀ instr, (Rvc.bits (halfword instr) 9 7).setWidth 32 ||| 8 = cRdSmall instr :=
    OrHom.ext (by decide)
  exact (short_eq_or _).trans (bits instr)

theorem rvc_rs2Short (instr : Instruction) : Rvc.rs2Short (halfword instr) = cRs2Small instr := by
  have bits : ∀ instr, (Rvc.bits (halfword instr) 4 2).setWidth 32 ||| 8 = cRs2Small instr :=
    OrHom.ext (by decide)
  exact (short_eq_or _).trans (bits instr)

theorem rvc_imm6 : ∀ instr, Rvc.imm6 (halfword instr) = cImm instr := by
  unfold Rvc.imm6
  exact OrHom.ext (by decide)

theorem rvc_shamt : ∀ instr, Rvc.shamt (halfword instr) = cUimm instr := by
  unfold Rvc.shamt
  exact OrHom.ext (by decide)

theorem rvc_uimmAddi4spn : ∀ instr, Rvc.uimmAddi4spn (halfword instr) = cAddi4spnNzuimm instr := by
  unfold Rvc.uimmAddi4spn
  exact OrHom.ext (by decide)

theorem rvc_uimmWord : ∀ instr, Rvc.uimmWord (halfword instr) = cLwUimm instr := by
  unfold Rvc.uimmWord
  exact OrHom.ext (by decide)

theorem rvc_uimmDouble : ∀ instr, Rvc.uimmDouble (halfword instr) = cLdUimm instr := by
  unfold Rvc.uimmDouble
  exact OrHom.ext (by decide)

theorem rvc_uimmWordLoadSp : ∀ instr, Rvc.uimmWordLoadSp (halfword instr) = cLwspUimm instr := by
  unfold Rvc.uimmWordLoadSp
  exact OrHom.ext (by decide)

theorem rvc_uimmDoubleLoadSp :
    ∀ instr, Rvc.uimmDoubleLoadSp (halfword instr) = cLdspUimm instr := by
  unfold Rvc.uimmDoubleLoadSp
  exact OrHom.ext (by decide)

theorem rvc_uimmWordStoreSp : ∀ instr, Rvc.uimmWordStoreSp (halfword instr) = cSwspUimm instr := by
  unfold Rvc.uimmWordStoreSp
  exact OrHom.ext (by decide)

theorem rvc_uimmDoubleStoreSp :
    ∀ instr, Rvc.uimmDoubleStoreSp (halfword instr) = cSdspUimm instr := by
  unfold Rvc.uimmDoubleStoreSp
  exact OrHom.ext (by decide)

theorem rvc_immAddi16sp : ∀ instr, Rvc.immAddi16sp (halfword instr) = cAddi16spNzimm instr := by
  unfold Rvc.immAddi16sp
  exact OrHom.ext (by decide)

theorem rvc_immLui : ∀ instr, Rvc.immLui (halfword instr) = cLuiNzimm instr := by
  unfold Rvc.immLui
  exact OrHom.ext (by decide)

theorem rvc_immJump : ∀ instr, Rvc.immJump (halfword instr) = cJalImm instr := by
  unfold Rvc.immJump
  exact OrHom.ext (by decide)

theorem rvc_immBranch : ∀ instr, Rvc.immBranch (halfword instr) = cBranchImm instr := by
  unfold Rvc.immBranch
  exact OrHom.ext (by decide)

/-- Shift amounts from 32 on are those with bit 12 set. -/
theorem cUimm_gt_iff (instr : Instruction) :
    cUimm instr > 31 ↔ Rvc.bits (halfword instr) 12 12 = 1 := by
  have split : ∀ (high : BitVec 1) (low : BitVec 5), (high ++ low).setWidth 32 > 31#32 ↔ high = 1 := by
    decide
  rw [← rvc_shamt]
  exact split _ _

end RiscvVp.Instruction
