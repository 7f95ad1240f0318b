/-
# RiscvVp.Iss.AlikeExec -- instructions between alike cores

A CSR instruction tells two alike cores apart only if it reads a register that may be different,
and so does a return from a trap.  `Guarded`: no such register can be read at the privilege level.
-/
import RiscvVp.Iss.Alike

namespace RiscvVp

set_option autoImplicit false

open Lib

variable {isa : Isa} {World : Type}

/-- Every address of a register that may be different asks for a level above `level`. -/
def Veil.Guarded (v : Veil isa) (level : PrivilegeLevel) : Prop :=
  ∀ a c, registerMapping isa a = some (.reg c) → v.secret c → level < csrPrv a.addr

namespace Iss

section Blind

variable (v : Veil isa) (plat : Platform World)

/-! ## CSRs -/

theorem blind_readCell {cell : Cell} (plain : ∀ c, cell = .reg c → ¬ v.secret c) :
    Blind (Alike v) (readCell cell : IssM isa World (Word isa)) := by
  refine .read fun {s s'} alike => ?_
  cases cell with
  | reg c => exact (alike.reg v (plain c rfl)).symm
  | counter k =>
    obtain ⟨status, reg, -, -, rfl⟩ := alike
    cases k <;> rfl
  | counterHigh k =>
    obtain ⟨status, reg, -, -, rfl⟩ := alike
    cases k <;> rfl

instance (k : Counter) : Blind (Alike v) (readCell (.counter k) : IssM isa World (Word isa)) :=
  blind_readCell v nofun

instance (k : Counter) : Blind (Alike v) (readCell (.counterHigh k) : IssM isa World (Word isa)) :=
  blind_readCell v nofun

instance (c : Csr) (mask : Word isa) [Inspected c] :
    Blind (Alike v) (readMasked c mask : IssM isa World (Word isa)) := by
  unfold readMasked
  infer_instance

instance (addr : BitVec 12) (isWrite : Bool) :
    Blind (Alike v) (isInvalidCsrAccess addr isWrite : IssM isa World Bool) := by
  unfold isInvalidCsrAccess
  infer_instance

instance (addr : BitVec 12) :
    Blind (Alike v) (validateCsrCounterReadAccessRights addr : IssM isa World Unit) := by
  unfold validateCsrCounterReadAccessRights
  infer_instance

theorem blind_defaultRead {a : CsrAddr}
    (plain : ∀ c, registerMapping isa a = some (.reg c) → ¬ v.secret c) :
    Blind (Alike v) (defaultRead a : IssM isa World (Word isa)) := by
  unfold defaultRead
  cases mapped : registerMapping isa a with
  | none =>
    exact (inferInstance : Blind (Alike v) (raiseIllegalInstruction : IssM isa World (Word isa)))
  | some cell =>
    refine blind_readCell v fun c own => ?_
    subst own
    exact plain c mapped

instance : Blind (Alike v) (updateTime plat : IssM isa World Unit) := by
  unfold updateTime
  infer_instance

instance : Blind (Alike v) (updateCycle : IssM isa World Unit) := by
  have counted : Blind (Alike v) (Exec.read fun s => BitVec.ofNat 64 s.cycleCounter
      : IssM isa World (BitVec 64)) := blind_read v fun _ _ _ _ _ => rfl
  unfold updateCycle
  infer_instance

theorem blind_getNamedCsr {a : CsrAddr}
    (plain : ∀ c, registerMapping isa a = some (.reg c) → ¬ v.secret c) :
    Blind (Alike v) (getNamedCsr plat a : IssM isa World (Word isa)) := by
  have byDefault := @blind_defaultRead isa World v a plain
  unfold getNamedCsr
  split <;> infer_instance

/-- At a level that guards the registers. -/
theorem blind_getCsrValue {level : PrivilegeLevel} {addr : BitVec 12} (guarded : v.Guarded level)
    (allowed : csrPrv addr ≤ level) :
    Blind (Alike v) (getCsrValue plat addr : IssM isa World (Word isa)) := by
  unfold getCsrValue
  cases named : CsrAddr.named addr with
  | none => infer_instance
  | some a =>
    have read : Blind (Alike v) (getNamedCsr plat a : IssM isa World (Word isa)) := by
      refine blind_getNamedCsr v plat fun c mapped secret => ?_
      have above := guarded a c mapped secret
      rw [CsrAddr.addr_of_named named] at above
      exact absurd above (BitVec.not_lt.mpr allowed)
    infer_instance

instance (a : CsrAddr) (value : Word isa) :
    Blind (Alike v) (defaultWrite a value : IssM isa World Unit) := by
  have written : ∀ cell, Blind (Alike v) (Exec.update fun s : Iss isa World =>
      { s with csrs := s.csrs.writeCell cell value } : IssM isa World Unit) := by
    intro cell
    cases cell with
    | reg c => exact .update fun alike => alike.setCsr v c fun _ => rfl
    | counter k => exact blind_update v fun _ _ _ _ _ => by cases k <;> exact ⟨rfl, rfl, rfl⟩
    | counterHigh k =>
      exact blind_update v fun _ _ _ _ _ => by cases k <;> exact ⟨rfl, rfl, rfl⟩
  unfold defaultWrite
  split <;> infer_instance

instance (value : Word isa) : Blind (Alike v) (writeSatp value : IssM isa World Unit) := by
  have satp : Blind (Alike v) (readCsr .satp : IssM isa World (Word isa)) := inferInstance
  have first : Blind (Alike v) (writeMasked .satp value (Mask.satp isa) : IssM isa World Unit) :=
    inferInstance
  have last : ∀ value, Blind (Alike v) (writeCsr .satp value : IssM isa World Unit) :=
    fun _ => inferInstance
  unfold writeSatp
  cases isa <;> infer_instance

instance (value : Word isa) (a : CsrAddr) :
    Blind (Alike v) (setNamedCsr value a : IssM isa World Unit) := by
  unfold setNamedCsr
  split <;> infer_instance

instance (addr : BitVec 12) (value : Word isa) :
    Blind (Alike v) (setCsrValue addr value : IssM isa World Unit) := by
  unfold setCsrValue
  split <;> infer_instance

/-! ## CSR instructions -/

variable {v} {s s' : Iss isa World} {instr : Instruction}

/-- What is behind the access check runs in the state before it, at a level that is enough. -/
theorem blindAt_access (alike : Alike v s s') {addr : BitVec 12} {isWrite : Bool}
    {body : IssM isa World Unit} (behind : csrPrv addr ≤ s.prv → Blind (Alike v) body) :
    BlindAt (Alike v) (do
      if ← isInvalidCsrAccess addr isWrite then raiseIllegalInstruction else body) s s' := by
  refine (BlindAt.of_blind inferInstance alike).bind fun invalid t t' checked _ after => ?_
  cases invalid with
  | true =>
    rw [if_pos rfl]
    exact BlindAt.of_blind inferInstance after
  | false =>
    obtain ⟨-, allowed, -⟩ := isInvalidCsrAccess_passed checked
    exact (behind allowed).same after

theorem blindAt_execCsrWrite (alike : Alike v s s') (guarded : v.Guarded s.prv)
    (operand : IssM isa World (Word isa)) [Blind (Alike v) operand] :
    BlindAt (Alike v) (execCsrWrite instr plat operand) s s' := by
  refine blindAt_access alike fun allowed => ?_
  have read : Blind (Alike v) (getCsrValue plat _ : IssM isa World (Word isa)) :=
    blind_getCsrValue v plat guarded allowed
  infer_instance

theorem blindAt_execCsrModify (alike : Alike v s s') (guarded : v.Guarded s.prv)
    (operand : IssM isa World (Word isa)) [Blind (Alike v) operand]
    (f : Word isa → Word isa → Word isa) :
    BlindAt (Alike v) (execCsrModify instr plat operand f) s s' := by
  refine blindAt_access alike fun allowed => ?_
  have read : Blind (Alike v) (getCsrValue plat _ : IssM isa World (Word isa)) :=
    blind_getCsrValue v plat guarded allowed
  infer_instance

end Blind

/-! ## Floating point -/

section Float

variable (v : Veil isa)

instance {α : Type} (call : α × BitVec 8) : Blind (Alike v) (softfloat call : IssM isa World α) := by
  have raised : Blind (Alike v) (Exec.update fun s =>
      { s with softfloatExceptionFlags := s.softfloatExceptionFlags ||| call.2 } : IssM isa World Unit) :=
    blind_update v fun _ _ _ _ _ => ⟨rfl, rfl, rfl⟩
  unfold softfloat
  infer_instance

instance : Blind (Alike v) (fpSetDirty : IssM isa World Unit) := by
  unfold fpSetDirty
  infer_instance

instance : Blind (Alike v) (fpPrepareInstr : IssM isa World Unit) := by
  unfold fpPrepareInstr fpRequireNotOff
  infer_instance

instance : Blind (Alike v) (fpUpdateExceptionFlags : IssM isa World Unit) := by
  have cleared : Blind (Alike v) (Exec.update fun s => { s with softfloatExceptionFlags := 0 }
      : IssM isa World Unit) := blind_update v fun _ _ _ _ _ => ⟨rfl, rfl, rfl⟩
  unfold fpUpdateExceptionFlags
  infer_instance

instance : Blind (Alike v) (fpFinishInstr : IssM isa World Unit) := by
  unfold fpFinishInstr
  infer_instance

instance (instr : Instruction) : Blind (Alike v) (fpSetupRm instr : IssM isa World Unit) := by
  have selected : ∀ rm, Blind (Alike v) (Exec.update fun s => { s with softfloatRoundingMode := rm }
      : IssM isa World Unit) := fun rm => blind_update v fun _ _ _ _ _ => ⟨rfl, rfl, rfl⟩
  unfold fpSetupRm
  infer_instance

variable (instr : Instruction) (ext : Word isa) (plat : Platform World)

section Body

variable (body : IssM isa World Unit) [Blind (Alike v) body]

instance : Blind (Alike v) (fpRounding instr ext body) := by
  unfold fpRounding
  infer_instance

instance : Blind (Alike v) (fpMoving ext body) := by
  unfold fpMoving
  infer_instance

instance : Blind (Alike v) (fpComparing ext body) := by
  unfold fpComparing
  infer_instance

end Body

instance (a b : BitVec 32) : Blind (Alike v) (f32Before plat a b : IssM isa World Bool) := by
  unfold f32Before
  infer_instance

instance (a b : BitVec 64) : Blind (Alike v) (f64Before plat a b : IssM isa World Bool) := by
  unfold f64Before
  infer_instance

instance (f : BitVec 8 → BitVec 32 → BitVec 32 → BitVec 32 × BitVec 8) :
    Blind (Alike v) (f32Binary instr f : IssM isa World Unit) := by
  unfold f32Binary
  infer_instance

instance (f : BitVec 8 → BitVec 64 → BitVec 64 → BitVec 64 × BitVec 8) :
    Blind (Alike v) (f64Binary instr f : IssM isa World Unit) := by
  unfold f64Binary
  infer_instance

instance (negProduct negAddend : BitVec 32 → BitVec 32) :
    Blind (Alike v) (f32Fused instr plat negProduct negAddend : IssM isa World Unit) := by
  unfold f32Fused
  infer_instance

instance (negProduct negAddend : BitVec 64 → BitVec 64) :
    Blind (Alike v) (f64Fused instr plat negProduct negAddend : IssM isa World Unit) := by
  unfold f64Fused
  infer_instance

instance (first : BitVec 32 → BitVec 32 → IssM isa World Bool) [∀ a b, Blind (Alike v) (first a b)] :
    Blind (Alike v) (f32Select instr first) := by
  unfold f32Select
  infer_instance

instance (first : BitVec 64 → BitVec 64 → IssM isa World Bool) [∀ a b, Blind (Alike v) (first a b)] :
    Blind (Alike v) (f64Select instr first) := by
  unfold f64Select
  infer_instance

instance (f : BitVec 32 → BitVec 32 → BitVec 32) :
    Blind (Alike v) (f32Sign instr f : IssM isa World Unit) := by
  unfold f32Sign
  infer_instance

instance (f : BitVec 64 → BitVec 64 → BitVec 64) :
    Blind (Alike v) (f64Sign instr f : IssM isa World Unit) := by
  unfold f64Sign
  infer_instance

instance (f : BitVec 32 → BitVec 32 → Bool × BitVec 8) :
    Blind (Alike v) (f32Compare instr f : IssM isa World Unit) := by
  unfold f32Compare
  infer_instance

instance (f : BitVec 64 → BitVec 64 → Bool × BitVec 8) :
    Blind (Alike v) (f64Compare instr f : IssM isa World Unit) := by
  unfold f64Compare
  infer_instance

section Conversion

variable {n m : Nat} (source : BitVec 32 → IssM isa World (BitVec n))
  (target : BitVec 32 → BitVec m → IssM isa World Unit) [∀ field, Blind (Alike v) (source field)]
  [∀ field x, Blind (Alike v) (target field x)] (f : BitVec 8 → BitVec n → BitVec m × BitVec 8)

instance : Blind (Alike v) (fpToInt instr ext source f) := by
  unfold fpToInt
  infer_instance

instance : Blind (Alike v) (intToFp instr ext target f) := by
  unfold intToFp
  infer_instance

instance : Blind (Alike v) (fpUnary instr ext source target f) := by
  unfold fpUnary
  infer_instance

end Conversion

instance (value : IssM isa World (Word isa)) [Blind (Alike v) value] :
    Blind (Alike v) (fpInspect instr ext value) := by
  unfold fpInspect
  infer_instance

instance : Blind (Alike v) (execFlw instr plat : IssM isa World Unit) := by
  have loaded : ∀ addr, Blind (Alike v) (loadData plat addr 4 : IssM isa World (BitVec (8 * 4))) :=
    fun _ => inferInstance
  unfold execFlw
  infer_instance

instance : Blind (Alike v) (execFsw instr plat : IssM isa World Unit) := by
  unfold execFsw
  infer_instance

instance : Blind (Alike v) (execFld instr plat : IssM isa World Unit) := by
  unfold execFld
  infer_instance

instance : Blind (Alike v) (execFsd instr plat : IssM isa World Unit) := by
  unfold execFsd
  infer_instance

end Float

/-! ## The other instructions -/

section Shapes

variable (v : Veil isa) (instr : Instruction) (plat : Platform World)

instance (f : Word isa → Word isa → Word isa) :
    Blind (Alike v) (execImm instr f : IssM isa World Unit) := by
  unfold execImm
  infer_instance

instance (f : Word isa → Word isa → Word isa) :
    Blind (Alike v) (execReg instr f : IssM isa World Unit) := by
  unfold execReg
  infer_instance

instance (f : Word isa → Nat → Word isa) :
    Blind (Alike v) (execShamt instr f : IssM isa World Unit) := by
  unfold execShamt
  infer_instance

instance (f : BitVec 32 → BitVec 32 → BitVec 32) :
    Blind (Alike v) (execRegW instr f : IssM isa World Unit) := by
  unfold execRegW
  infer_instance

instance (f : BitVec 32 → BitVec 32) : Blind (Alike v) (execImmW instr f : IssM isa World Unit) := by
  unfold execImmW
  infer_instance

instance : Blind (Alike v) (execLui instr : IssM isa World Unit) := by
  unfold execLui
  infer_instance

instance : Blind (Alike v) (execAuipc instr : IssM isa World Unit) := by
  unfold execAuipc
  infer_instance

instance : Blind (Alike v) (execJal instr : IssM isa World Unit) := by
  unfold execJal
  infer_instance

instance : Blind (Alike v) (execJalr instr : IssM isa World Unit) := by
  unfold execJalr
  infer_instance

instance (taken : Word isa → Word isa → Bool) :
    Blind (Alike v) (execBranch instr taken : IssM isa World Unit) := by
  unfold execBranch
  infer_instance

instance (bytes : Nat) (extend : BitVec (8 * bytes) → Word isa) :
    Blind (Alike v) (execLoad instr plat bytes extend : IssM isa World Unit) := by
  unfold execLoad
  infer_instance

instance (bytes : Nat) : Blind (Alike v) (execStore instr plat bytes : IssM isa World Unit) := by
  unfold execStore
  infer_instance

instance (bytes : Nat) : Blind (Alike v) (execLr instr plat bytes : IssM isa World Unit) := by
  unfold execLr
  infer_instance

instance (bytes : Nat) : Blind (Alike v) (execSc instr plat bytes : IssM isa World Unit) := by
  unfold execSc
  infer_instance

instance {α : Type} (e : Exc) : Blind (Alike v) (amoFault e : IssM isa World α) := by
  cases e <;> unfold amoFault <;> infer_instance

instance (bytes : Nat) (operation : BitVec (8 * bytes) → BitVec (8 * bytes) → BitVec (8 * bytes)) :
    Blind (Alike v) (executeAmo instr plat bytes operation : IssM isa World Unit) := by
  unfold executeAmo
  infer_instance

instance (operation : BitVec 32 → BitVec 32 → BitVec 32) :
    Blind (Alike v) (executeAmoW instr plat operation : IssM isa World Unit) := by
  have narrow : Blind (Alike v) (executeAmo instr plat 4 operation : IssM isa World Unit) :=
    inferInstanceAs (Blind (Alike v) (executeAmo instr plat 4 _ : IssM isa World Unit))
  unfold executeAmoW
  infer_instance

instance (operation : BitVec 64 → BitVec 64 → BitVec 64) :
    Blind (Alike v) (executeAmoD instr plat operation : IssM isa World Unit) := by
  have wide : Blind (Alike v) (executeAmo instr plat 8 operation : IssM isa World Unit) :=
    inferInstanceAs (Blind (Alike v) (executeAmo instr plat 8 _ : IssM isa World Unit))
  unfold executeAmoD
  infer_instance

instance : Blind (Alike v) (executeSyscall plat : IssM isa World Unit) := by
  have exits : Blind (Alike v) (Exec.update fun s => { s with shallExit := true }
      : IssM isa World Unit) := blind_update v fun _ _ _ _ _ => ⟨rfl, rfl, rfl⟩
  unfold executeSyscall
  repeat refine .bind inferInstance fun _ => ?_
  infer_instance

instance : Blind (Alike v) (execEcall plat : IssM isa World Unit) := by
  unfold execEcall
  infer_instance

instance : Blind (Alike v) (zimmWord instr : IssM isa World (Word isa)) := by
  unfold zimmWord
  infer_instance

instance : Blind (Alike v) (execWfi plat : IssM isa World Unit) := by
  unfold execWfi
  repeat refine .bind inferInstance fun _ => ?_
  infer_instance

instance : Blind (Alike v) (execSfenceVma plat : IssM isa World Unit) := by
  unfold execSfenceVma
  infer_instance

/-! ### Returns from traps -/

theorem blind_readOpen {c : Csr} (open_ : ¬ v.secret c) :
    Blind (Alike v) (readCsr c : IssM isa World (Word isa)) :=
  .read fun alike => (alike.reg v open_).symm

theorem blind_mret (open_ : ¬ v.secret .mepc) :
    Blind (Alike v) (returnFromMachineMode : IssM isa World Unit) := by
  have epc := @blind_readOpen isa World v .mepc open_
  unfold returnFromMachineMode
  infer_instance

theorem blind_sret (open_ : ¬ v.secret .sepc) : Blind (Alike v) (execSret : IssM isa World Unit) := by
  have epc := @blind_readOpen isa World v .sepc open_
  have returned : Blind (Alike v) (returnFromSupervisorMode : IssM isa World Unit) := by
    unfold returnFromSupervisorMode
    infer_instance
  unfold execSret
  infer_instance

theorem blind_uret (open_ : ¬ v.secret .uepc) : Blind (Alike v) (execUret : IssM isa World Unit) := by
  have epc := @blind_readOpen isa World v .uepc open_
  unfold execUret returnFromUserMode
  infer_instance

/-! ### The switch -/

theorem blind_exec_float {op : Mapping} (float : op.isFloat = true) :
    Blind (Alike v) (exec instr plat op : IssM isa World Unit) := by
  cases op
  all_goals first
    | cases float; done
    | (unfold exec; infer_instance)

/-- Neither a CSR instruction nor a return from a trap. -/
theorem blind_exec {op : Mapping} (csr : op.isCsr = false) (ret : op.isReturn = false) :
    Blind (Alike v) (exec instr plat op : IssM isa World Unit) := by
  cases float : op.isFloat with
  | true => exact blind_exec_float v instr plat float
  | false =>
    cases op
    all_goals first
      | cases csr; done
      | cases ret; done
      | cases float; done
      | (unfold exec; infer_instance)

end Shapes

end Iss

end RiscvVp
