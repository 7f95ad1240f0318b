/-
# RiscvVp.Iss.IntExec -- the integer instructions are the ISA's

`exec_step` computes with 32-, 64- and 128-bit integers of C++, signed and unsigned, and
with casts between them; the specification is in numbers.  Operation by operation they
are the same, and so is what an instruction does to the core: `rd` and the program counter
change as specified and nothing else does.
-/
import RiscvVp.Lib.Mask
import RiscvVp.Lib.TwosComplement
import RiscvVp.Instr.BitMoves
import RiscvVp.Instr.Expansion
import RiscvVp.Iss.IntSpec
import RiscvVp.Iss.Run

namespace RiscvVp

set_option autoImplicit false

open Lib

namespace Iss

variable {isa : Isa} {World : Type}

/-! ## Fields -/

section Fields

open Instruction

variable (instr : Instruction)

theorem regIndex_rd : regIndex instr.rd = Spec.rd instr := by
  unfold regIndex Spec.rd
  revert instr
  exact OrHom.ext (by decide)

theorem regIndex_rs1 : regIndex instr.rs1 = Spec.rs1 instr := by
  unfold regIndex rs1 Spec.rs1
  revert instr
  exact OrHom.ext (by decide)

theorem regIndex_rs2 : regIndex instr.rs2 = Spec.rs2 instr := by
  unfold regIndex rs2 Spec.rs2
  revert instr
  exact OrHom.ext (by decide)

theorem iImm_eq : instr.iImm = (Spec.immI instr).signExtend 32 := by
  unfold iImm Spec.immI
  revert instr
  exact OrHom.ext (by decide)

theorem iImm_extended : instr.iImm.signExtend isa.xlen = (Spec.immI instr).signExtend isa.xlen := by
  unfold iImm Spec.immI
  revert instr
  cases isa <;> exact OrHom.ext (by decide)

theorem uImm_extended : instr.uImm.signExtend isa.xlen = (Spec.immU instr).signExtend isa.xlen := by
  unfold uImm Spec.immU
  revert instr
  cases isa <;> exact OrHom.ext (by decide)

theorem jImm_extended : instr.jImm.signExtend isa.xlen = (Spec.immJ instr).signExtend isa.xlen := by
  unfold jImm Spec.immJ
  revert instr
  cases isa <;> exact OrHom.ext (by decide)

theorem bImm_extended : instr.bImm.signExtend isa.xlen = (Spec.immB instr).signExtend isa.xlen := by
  unfold bImm Spec.immB
  revert instr
  cases isa <;> exact OrHom.ext (by decide)

theorem jImm_even : (Spec.immJ instr).signExtend isa.xlen &&& 1 = 0 := by
  unfold Spec.immJ
  revert instr
  cases isa <;> exact OrHom.ext (by decide)

theorem bImm_even : (Spec.immB instr).signExtend isa.xlen &&& 1 = 0 := by
  unfold Spec.immB
  revert instr
  cases isa <;> exact OrHom.ext (by decide)

theorem shamtW_eq : instr.shamtW.toNat = Spec.shamtW instr := by
  have fields : instr.shamtW = (instr.extractLsb' 20 5).setWidth 32 := by
    unfold Instruction.shamtW
    revert instr
    exact OrHom.ext (by decide)
  rw [fields, BitVec.toNat_setWidth_of_le (by decide)]
  rfl

end Fields

/-! ## Operations -/

section Operations

variable {w : Nat}

theorem boolWord_eq (b : Bool) : (boolWord b : Word isa) = if b then 1 else 0 := by
  cases isa <;> cases b <;> rfl

theorem boolWord_slt (a b : Word isa) : boolWord (a.slt b) = Spec.slt a b := by
  rw [boolWord_eq, BitVec.slt_eq_decide]
  simp [Spec.slt]

theorem boolWord_ult (a b : Word isa) : boolWord (a.ult b) = Spec.sltu a b := by
  rw [boolWord_eq, BitVec.ult_eq_decide]
  simp [Spec.sltu]

theorem extract_toNat (x : BitVec w) (n : Nat) : (x.extractLsb' 0 n).toNat = x.toNat % 2 ^ n := by
  rw [BitVec.extractLsb'_toNat, Nat.shiftRight_zero]

theorem regShamt_eq (b : Word isa) : regShamt b = b.toNat % isa.xlen := by
  cases isa
  · exact extract_toNat b 5
  · exact extract_toNat b 6

/-- The lower five bits of the lower half. -/
theorem shamtW_setWidth (b : Word isa) : shamtW (b.setWidth 32) = b.toNat % 32 := by
  unfold shamtW
  rw [extract_toNat, BitVec.toNat_setWidth]
  exact Nat.mod_mod_of_dvd _ (by decide)

theorem mulHigh_eq {a b : BitVec (2 * isa.xlen)} {x y : Int} (first : a = BitVec.ofInt _ x)
    (second : b = BitVec.ofInt _ y) : mulHigh a b = BitVec.ofInt isa.xlen (x * y / 2 ^ isa.xlen) := by
  unfold mulHigh
  rw [first, second, ← BitVec.ofInt_mul]
  exact TwosComplement.high_half _

theorem eq_zero_iff_toInt (b : BitVec w) : b.toInt = 0 ↔ b = 0 := by
  rw [← BitVec.toInt_inj]
  change _ ↔ b.toInt = (0#w).toInt
  rw [BitVec.toInt_zero]

theorem eq_zero_iff_toNat (b : BitVec w) : b.toNat = 0 ↔ b = 0 := BitVec.toNat_inj (y := 0#w)

theorem neg_one_eq : (-1 : BitVec w) = BitVec.ofInt w (-1) := (BitVec.ofInt_neg (w := w) (n := 1)).symm

section Division

variable (a b : BitVec w)

/-- The dividend and the divisor of the overflow. -/
theorem overflows_iff (positive : 0 < w) :
    a.toInt = -2 ^ (w - 1) ∧ b.toInt = -1 ↔ a = BitVec.intMin w ∧ b = -1 := by
  have minus : (-1 : BitVec w).toInt = -1 := by
    change (-1#w).toInt = -1
    rw [BitVec.neg_one_eq_allOnes, BitVec.toInt_allOnes, if_pos positive]
  rw [← BitVec.toInt_intMin_of_pos positive, ← minus, BitVec.toInt_inj, BitVec.toInt_inj]

theorem divSigned_eq (positive : 0 < w) : divSigned a b = Spec.div a b := by
  unfold divSigned Spec.div
  by_cases zero : b = 0
  · rw [if_pos zero, if_pos ((eq_zero_iff_toInt b).mpr zero)]
    exact neg_one_eq
  rw [if_neg zero, if_neg (mt (eq_zero_iff_toInt b).mp zero)]
  by_cases overflow : a = BitVec.intMin w ∧ b = -1
  · rw [if_pos overflow, if_pos ((overflows_iff a b positive).mpr overflow)]
  · rw [if_neg overflow, if_neg (mt (overflows_iff a b positive).mp overflow)]
    exact TwosComplement.sdiv_eq a b

theorem remSigned_eq (positive : 0 < w) : remSigned a b = Spec.rem a b := by
  unfold remSigned Spec.rem
  by_cases zero : b = 0
  · rw [if_pos zero, if_pos ((eq_zero_iff_toInt b).mpr zero)]
  rw [if_neg zero, if_neg (mt (eq_zero_iff_toInt b).mp zero)]
  by_cases overflow : a = BitVec.intMin w ∧ b = -1
  · rw [if_pos overflow, if_pos ((overflows_iff a b positive).mpr overflow)]
  · rw [if_neg overflow, if_neg (mt (overflows_iff a b positive).mp overflow)]
    exact TwosComplement.srem_eq a b

theorem divUnsigned_eq : divUnsigned a b = Spec.divu a b := by
  unfold divUnsigned Spec.divu
  by_cases zero : b = 0
  · rw [if_pos zero, if_pos ((eq_zero_iff_toNat b).mpr zero)]
    exact neg_one_eq
  · rw [if_neg zero, if_neg (mt (eq_zero_iff_toNat b).mp zero)]
    exact TwosComplement.udiv_eq a b

theorem remUnsigned_eq : remUnsigned a b = Spec.remu a b := by
  unfold remUnsigned Spec.remu
  by_cases zero : b = 0
  · rw [if_pos zero, if_pos ((eq_zero_iff_toNat b).mpr zero)]
  · rw [if_neg zero, if_neg (mt (eq_zero_iff_toNat b).mp zero)]
    exact TwosComplement.umod_eq a b

end Division

end Operations

/-! ## Instructions -/

open Spec Effect

/-- An effect on the core: a misaligned target is a trap, unless there are compressed
instructions. -/
def outcome (i : Instruction) (e : Effect isa) (u : Iss isa World) : Except Exc Unit × Iss isa World :=
  let write (u : Iss isa World) :=
    match e.value with
    | some value => u.setReg (Spec.rd i) value
    | none => u
  match e.target with
  | none => (.ok (), write u)
  | some target =>
      if target &&& 3 ≠ 0 ∧ !u.hasExtension Misa.extC then
        (.error (.trap ⟨.instrAddrMisaligned, target.setWidth 64⟩), { u with pc := target })
      else (.ok (), write { u with pc := target })

section Instructions

variable {instr : Instruction} {plat : Platform World} {u : Iss isa World}

theorem run_writeReg (value : Word isa) :
    (writeReg instr.rd value).run u = (.ok (), u.setReg (Spec.rd instr) value) := by
  rw [← regIndex_rd]
  rfl

theorem run_execReg {f : Word isa → Word isa → Word isa} {value : Word isa}
    (same : f (u.regs (Spec.rs1 instr)) (u.regs (Spec.rs2 instr)) = value) :
    (execReg instr f).run u = outcome instr ⟨some value, none⟩ u := by
  subst same
  rw [← regIndex_rs1, ← regIndex_rs2]
  exact run_writeReg _

theorem run_execImm {f : Word isa → Word isa → Word isa} {value : Word isa}
    (same : f (u.regs (Spec.rs1 instr)) ((immI instr).signExtend isa.xlen) = value) :
    (execImm instr f).run u = outcome instr ⟨some value, none⟩ u := by
  subst same
  rw [← regIndex_rs1, ← iImm_extended]
  exact run_writeReg _

theorem run_execShamt {f : Word isa → Nat → Word isa} {value : Word isa}
    (same : f (u.regs (Spec.rs1 instr)) instr.shamt.toNat = value) :
    (execShamt instr f).run u = outcome instr ⟨some value, none⟩ u := by
  subst same
  rw [← regIndex_rs1]
  exact run_writeReg _

theorem run_execRegW {f : BitVec 32 → BitVec 32 → BitVec 32} {value : BitVec 32}
    (same : f ((u.regs (Spec.rs1 instr)).setWidth 32) ((u.regs (Spec.rs2 instr)).setWidth 32) = value) :
    (execRegW instr f).run u = outcome instr ⟨some (value.signExtend isa.xlen), none⟩ u := by
  subst same
  rw [← regIndex_rs1, ← regIndex_rs2]
  unfold outcome
  rw [← regIndex_rd]
  rfl

theorem run_execImmW {f : BitVec 32 → BitVec 32} {value : BitVec 32}
    (same : f ((u.regs (Spec.rs1 instr)).setWidth 32) = value) :
    (execImmW instr f).run u = outcome instr ⟨some (value.signExtend isa.xlen), none⟩ u := by
  subst same
  rw [← regIndex_rs1]
  unfold outcome
  rw [← regIndex_rd]
  rfl

theorem run_onlyRv64 {m : IssM isa World Unit} {value : BitVec 32} {e : Effect isa}
    (defined : writesW value = some e)
    (ran : m.run u = outcome instr ⟨some (value.signExtend isa.xlen), none⟩ u) :
    (onlyRv64 m).run u = outcome instr e u := by
  cases isa with
  | rv32 => cases defined
  | rv64 =>
    cases defined
    exact ran

/-! ### Jumps -/

theorem run_trapCheckPcAlignment {target : Word isa} (even : target &&& 1 = 0) :
    (trapCheckPcAlignment).run { u with pc := target } =
      if target &&& 3 ≠ 0 ∧ !u.hasExtension Misa.extC then
        (.error (.trap ⟨.instrAddrMisaligned, target.setWidth 64⟩), { u with pc := target })
      else (.ok (), { u with pc := target }) := by
  have even' : ({ u with pc := target } : Iss isa World).pc &&& 1 = 0 := even
  unfold trapCheckPcAlignment
  rw [Exec.run_read_bind, run_assert_bind _ even', Exec.run_read_bind]
  split
  case isTrue misaligned => exact (if_pos misaligned).symm
  case isFalse fits => exact (if_neg fits).symm

theorem even_add {a b : Word isa} (first : a &&& 1 = 0) (second : b &&& 1 = 0) :
    Spec.add a b &&& 1 = 0 := by
  have wide : 1 < isa.xlen := by cases isa <;> decide
  have sum : Spec.add a b = a + b := (TwosComplement.add_eq a b).symm
  rw [and_one_eq_zero_iff wide] at first second ⊢
  have low := add_toNat_mod (k := 1) (Nat.le_of_lt wide) a b
  rw [sum]
  omega

/-- The target is set and checked, and then the link is written. -/
theorem run_jump {target link : Word isa} (even : target &&& 1 = 0) :
    (do setPc target; trapCheckPcAlignment; writeReg instr.rd link : IssM isa World Unit).run u =
      outcome instr ⟨some link, some target⟩ u := by
  have moved : (setPc target).run u = (.ok (), { u with pc := target }) := rfl
  have checked := run_trapCheckPcAlignment (u := u) even
  rw [Exec.run_bind_ok moved]
  by_cases misaligned : target &&& 3 ≠ 0 ∧ !u.hasExtension Misa.extC
  · rw [if_pos misaligned] at checked
    exact (Exec.run_bind_error checked).trans (if_pos misaligned).symm
  · rw [if_neg misaligned] at checked
    rw [Exec.run_bind_ok checked, run_writeReg]
    exact (if_neg misaligned).symm

theorem run_execBranch {taken : Word isa → Word isa → Bool} {spec : Bool}
    (same : taken (u.regs (Spec.rs1 instr)) (u.regs (Spec.rs2 instr)) = spec)
    (even : u.lastPc &&& 1 = 0) : (execBranch instr taken).run u =
      outcome instr ⟨none, if spec then some (Spec.add u.lastPc ((immB instr).signExtend _)) else none⟩
        u := by
  subst same
  have target : u.lastPc + instr.bImm.signExtend isa.xlen =
      Spec.add u.lastPc ((immB instr).signExtend _) := by
    rw [bImm_extended]
    exact TwosComplement.add_eq _ _
  have unfolded : (execBranch instr taken).run u =
      (if taken (u.regs (regIndex instr.rs1)) (u.regs (regIndex instr.rs2)) then do
        setPc (u.lastPc + instr.bImm.signExtend isa.xlen)
        trapCheckPcAlignment
      else pure () : IssM isa World Unit).run u := by
    unfold execBranch
    rw [run_readReg_bind, run_readReg_bind]
    split <;> rfl
  rw [unfolded, regIndex_rs1, regIndex_rs2, target]
  split
  · exact run_trapCheckPcAlignment (even_add even (bImm_even instr))
  · rfl

/-! ### Families -/

variable {op : Mapping} {e : Effect isa}

/-- Operations on a register and an immediate. -/
theorem exec_imm (family : op ∈ [Mapping.addi, .slti, .sltiu, .xori, .ori, .andi])
    (defined : effect isa instr (u.regs (Spec.rs1 instr)) (u.regs (Spec.rs2 instr)) u.lastPc u.pc op = some e) :
    (exec instr plat op).run u = outcome instr e u := by
  simp only [List.mem_cons, List.not_mem_nil, or_false] at family
  rcases family with rfl | rfl | rfl | rfl | rfl | rfl
  · cases defined
    refine run_execImm ?_
    exact TwosComplement.add_eq _ _
  · cases defined
    refine @run_execImm isa World instr u (fun a b => boolWord (a.slt b)) _ ?_
    exact boolWord_slt _ _
  · cases defined
    refine @run_execImm isa World instr u (fun a b => boolWord (a.ult b)) _ ?_
    exact boolWord_ult _ _
  · cases defined
    exact run_execImm rfl
  · cases defined
    exact run_execImm rfl
  · cases defined
    exact run_execImm rfl

/-- Operations on two registers. -/
theorem exec_reg (family : op ∈ [Mapping.add, .sub, .slt, .sltu, .xor, .or, .and, .sll, .srl, .sra])
    (defined : effect isa instr (u.regs (Spec.rs1 instr)) (u.regs (Spec.rs2 instr)) u.lastPc u.pc op = some e) :
    (exec instr plat op).run u = outcome instr e u := by
  simp only [List.mem_cons, List.not_mem_nil, or_false] at family
  rcases family with rfl | rfl | rfl | rfl | rfl | rfl | rfl | rfl | rfl | rfl
  · cases defined
    refine run_execReg ?_
    exact TwosComplement.add_eq _ _
  · cases defined
    refine run_execReg ?_
    exact TwosComplement.sub_eq _ _
  · cases defined
    refine run_execReg ?_
    exact boolWord_slt _ _
  · cases defined
    refine run_execReg ?_
    exact boolWord_ult _ _
  · cases defined
    exact run_execReg rfl
  · cases defined
    exact run_execReg rfl
  · cases defined
    exact run_execReg rfl
  · cases defined
    refine run_execReg ?_
    rw [regShamt_eq]
    exact TwosComplement.shiftLeft_eq _ _
  · cases defined
    refine run_execReg ?_
    rw [regShamt_eq]
    exact TwosComplement.ushiftRight_eq _ _
  · cases defined
    refine run_execReg ?_
    rw [regShamt_eq]
    exact TwosComplement.sshiftRight_eq _ _

/-- Shifts by an amount in the instruction. -/
theorem exec_shamt (family : op ∈ [Mapping.slli, .srli, .srai])
    (defined : effect isa instr (u.regs (Spec.rs1 instr)) (u.regs (Spec.rs2 instr)) u.lastPc u.pc op = some e)
    (shifts : instr.shamt.toNat = Spec.shamt instr isa) :
    (exec instr plat op).run u = outcome instr e u := by
  simp only [List.mem_cons, List.not_mem_nil, or_false] at family
  rcases family with rfl | rfl | rfl
  · cases defined
    refine run_execShamt ?_
    rw [shifts]
    exact TwosComplement.shiftLeft_eq _ _
  · cases defined
    refine run_execShamt ?_
    rw [shifts]
    exact TwosComplement.ushiftRight_eq _ _
  · cases defined
    refine run_execShamt ?_
    rw [shifts]
    exact TwosComplement.sshiftRight_eq _ _

theorem exec_upper (family : op ∈ [Mapping.lui, .auipc])
    (defined : effect isa instr (u.regs (Spec.rs1 instr)) (u.regs (Spec.rs2 instr)) u.lastPc u.pc op = some e) :
    (exec instr plat op).run u = outcome instr e u := by
  simp only [List.mem_cons, List.not_mem_nil, or_false] at family
  rcases family with rfl | rfl
  · cases defined
    rw [← uImm_extended]
    exact run_writeReg _
  · cases defined
    rw [← uImm_extended, Spec.add, ← TwosComplement.add_eq]
    exact run_writeReg _

theorem exec_jump (family : op ∈ [Mapping.jal, .jalr])
    (defined : effect isa instr (u.regs (Spec.rs1 instr)) (u.regs (Spec.rs2 instr)) u.lastPc u.pc op = some e)
    (even : u.lastPc &&& 1 = 0) :
    (exec instr plat op).run u = outcome instr e u := by
  simp only [List.mem_cons, List.not_mem_nil, or_false] at family
  rcases family with rfl | rfl
  · cases defined
    have target := even_add even (jImm_even instr)
    rw [← jImm_extended, Spec.add, ← TwosComplement.add_eq] at target ⊢
    exact run_jump target
  · cases defined
    rw [← iImm_extended, Spec.add, ← TwosComplement.add_eq, ← regIndex_rs1]
    refine run_jump ?_
    have cleared : (~~~1 : Word isa) &&& 1 = 0 := by cases isa <;> decide
    rw [BitVec.and_assoc, cleared]
    exact BitVec.and_zero

theorem exec_branch (family : op ∈ [Mapping.beq, .bne, .blt, .bge, .bltu, .bgeu])
    (defined : effect isa instr (u.regs (Spec.rs1 instr)) (u.regs (Spec.rs2 instr)) u.lastPc u.pc op = some e)
    (even : u.lastPc &&& 1 = 0) :
    (exec instr plat op).run u = outcome instr e u := by
  simp only [List.mem_cons, List.not_mem_nil, or_false] at family
  rcases family with rfl | rfl | rfl | rfl | rfl | rfl
  · cases defined
    exact run_execBranch rfl even
  · cases defined
    exact run_execBranch decide_not.symm even
  · cases defined
    exact run_execBranch BitVec.slt_eq_decide even
  · cases defined
    refine run_execBranch ?_ even
    rw [BitVec.slt_eq_decide, ← decide_not]
    exact decide_eq_decide.mpr Int.not_lt
  · cases defined
    exact run_execBranch BitVec.ult_eq_decide even
  · cases defined
    refine run_execBranch ?_ even
    rw [BitVec.ult_eq_decide, ← decide_not]
    exact decide_eq_decide.mpr Nat.not_lt

/-- The extension `M`. -/
theorem exec_mul (family : op ∈ [Mapping.mul, .mulh, .mulhsu, .mulhu, .div, .divu, .rem, .remu])
    (defined : effect isa instr (u.regs (Spec.rs1 instr)) (u.regs (Spec.rs2 instr)) u.lastPc u.pc op = some e)
    (enabled : Extends (Misa.M isa) u) :
    (exec instr plat op).run u = outcome instr e u := by
  have multiplies : ∀ {m : IssM isa World Unit},
      (do requireIsa (Misa.M isa); m : IssM isa World Unit).run u = m.run u :=
    Exec.run_bind_ok (run_requireIsa_present enabled)
  have wide : 0 < isa.xlen := by cases isa <;> decide
  simp only [List.mem_cons, List.not_mem_nil, or_false] at family
  rcases family with rfl | rfl | rfl | rfl | rfl | rfl | rfl | rfl
  · cases defined
    refine multiplies.trans (run_execReg ?_)
    exact TwosComplement.mul_eq _ _
  · cases defined
    refine multiplies.trans (run_execReg ?_)
    exact mulHigh_eq (TwosComplement.signExtend_eq_ofInt _) (TwosComplement.signExtend_eq_ofInt _)
  · cases defined
    refine multiplies.trans (run_execReg ?_)
    exact mulHigh_eq (TwosComplement.signExtend_eq_ofInt _) (TwosComplement.setWidth_eq_ofInt _)
  · cases defined
    refine multiplies.trans (run_execReg ?_)
    exact mulHigh_eq (TwosComplement.setWidth_eq_ofInt _) (TwosComplement.setWidth_eq_ofInt _)
  · cases defined
    refine multiplies.trans (run_execReg ?_)
    exact divSigned_eq _ _ wide
  · cases defined
    refine multiplies.trans (run_execReg ?_)
    exact divUnsigned_eq _ _
  · cases defined
    refine multiplies.trans (run_execReg ?_)
    exact remSigned_eq _ _ wide
  · cases defined
    refine multiplies.trans (run_execReg ?_)
    exact remUnsigned_eq _ _

/-- Operations on the lower half of a register. -/
theorem exec_immW (family : op ∈ [Mapping.addiw, .slliw, .srliw, .sraiw])
    (defined : effect isa instr (u.regs (Spec.rs1 instr)) (u.regs (Spec.rs2 instr)) u.lastPc u.pc op = some e) :
    (exec instr plat op).run u = outcome instr e u := by
  simp only [List.mem_cons, List.not_mem_nil, or_false] at family
  rcases family with rfl | rfl | rfl | rfl
  · refine run_onlyRv64 defined (run_execImmW ?_)
    rw [iImm_eq]
    exact TwosComplement.add_eq _ _
  · refine run_onlyRv64 defined (run_execImmW ?_)
    rw [shamtW_eq]
    exact TwosComplement.shiftLeft_eq _ _
  · refine run_onlyRv64 defined (run_execImmW ?_)
    rw [shamtW_eq]
    exact TwosComplement.ushiftRight_eq _ _
  · refine run_onlyRv64 defined (run_execImmW ?_)
    rw [shamtW_eq]
    exact TwosComplement.sshiftRight_eq _ _

theorem exec_regW (family : op ∈ [Mapping.addw, .subw, .mulw, .divw, .divuw, .remw, .remuw, .sllw, .srlw, .sraw])
    (defined : effect isa instr (u.regs (Spec.rs1 instr)) (u.regs (Spec.rs2 instr)) u.lastPc u.pc op = some e) :
    (exec instr plat op).run u = outcome instr e u := by
  simp only [List.mem_cons, List.not_mem_nil, or_false] at family
  rcases family with rfl | rfl | rfl | rfl | rfl | rfl | rfl | rfl | rfl | rfl
  · refine run_onlyRv64 defined (run_execRegW ?_)
    exact TwosComplement.add_eq _ _
  · refine run_onlyRv64 defined (run_execRegW ?_)
    exact TwosComplement.sub_eq _ _
  · refine run_onlyRv64 defined (run_execRegW ?_)
    exact TwosComplement.mul_eq _ _
  · refine run_onlyRv64 defined (run_execRegW ?_)
    exact divSigned_eq _ _ (by decide)
  · refine run_onlyRv64 defined (run_execRegW ?_)
    exact divUnsigned_eq _ _
  · refine run_onlyRv64 defined (run_execRegW ?_)
    exact remSigned_eq _ _ (by decide)
  · refine run_onlyRv64 defined (run_execRegW ?_)
    exact remUnsigned_eq _ _
  · refine run_onlyRv64 defined (run_execRegW ?_)
    rw [shamtW_setWidth]
    exact TwosComplement.shiftLeft_eq _ _
  · refine run_onlyRv64 defined (run_execRegW ?_)
    rw [shamtW_setWidth]
    exact TwosComplement.ushiftRight_eq _ _
  · refine run_onlyRv64 defined (run_execRegW ?_)
    rw [shamtW_setWidth]
    exact TwosComplement.sshiftRight_eq _ _

/-- Every instruction that the specification defines. -/
theorem exec_outcome
    (defined : effect isa instr (u.regs (Spec.rs1 instr)) (u.regs (Spec.rs2 instr)) u.lastPc u.pc op = some e)
    (enabled : isM op = true → Extends (Misa.M isa) u)
    (shifts : op = .slli ∨ op = .srli ∨ op = .srai → instr.shamt.toNat = Spec.shamt instr isa)
    (even : u.lastPc &&& 1 = 0) : (exec instr plat op).run u = outcome instr e u := by
  cases op
  case addi | slti | sltiu | xori | ori | andi => exact exec_imm (by decide) defined
  case add | sub | slt | sltu | xor | or | and | sll | srl | sra => exact exec_reg (by decide) defined
  case slli | srli | srai => exact exec_shamt (by decide) defined (shifts (by decide))
  case lui | auipc => exact exec_upper (by decide) defined
  case jal | jalr => exact exec_jump (by decide) defined even
  case beq | bne | blt | bge | bltu | bgeu => exact exec_branch (by decide) defined even
  case mul | mulh | mulhsu | mulhu | div | divu | rem | remu => exact exec_mul (by decide) defined (enabled rfl)
  case addiw | slliw | srliw | sraiw => exact exec_immW (by decide) defined
  case addw | subw | mulw | divw | divuw | remw | remuw | sllw | srlw | sraw => exact exec_regW (by decide) defined
  all_goals cases defined

end Instructions

end Iss

end RiscvVp
