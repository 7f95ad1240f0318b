/-
# RiscvVp.Iss.Exec -- `exec_step`

One definition for each shape of instruction, and the switch over the opcodes.  Where
the two cores differ the RV32 one has an extension check in front (`requireIsa`), or
has no such instruction (`onlyRv64`).
-/
import RiscvVp.Instr.Compressed
import RiscvVp.Instr.DecodeNormal
import RiscvVp.Iss.Fp
import RiscvVp.Iss.Memory

namespace RiscvVp.Iss

set_option autoImplicit false

open Lib

variable {isa : Isa} {World : Type}

/-! ## Checks and small state changes -/

/-- An opcode that the RV32 core answers with an illegal-instruction trap. -/
def onlyRv64 (m : IssM isa World Unit) : IssM isa World Unit :=
  match isa with
  | .rv32 => raiseIllegalInstruction
  | .rv64 => m

def setPc (pc : Word isa) : IssM isa World Unit := Exec.update fun s => { s with pc := pc }

def setLrScCounter (n : Int) : IssM isa World Unit :=
  Exec.update fun s => { s with lrScCounter := n }

def setPrv (prv : PrivilegeLevel) : IssM isa World Unit :=
  Exec.update fun s => { s with prv := prv }

def setStatus (status : CoreExecStatus) : IssM isa World Unit :=
  Exec.update fun s => { s with status := status }

def setOp (op : Mapping) : IssM isa World Unit := Exec.update fun s => { s with op := op }

def setInstr (instr : Instruction) : IssM isa World Unit :=
  Exec.update fun s => { s with instr := instr }

def trapCheckPcAlignment : IssM isa World Unit := do
  let pc ← Exec.read pc
  assert (pc &&& 1 = 0) .oddProgramCounter
  if pc &&& 3 ≠ 0 ∧ !(← Exec.read (hasExtension Misa.extC)) then
    raiseTrap .instrAddrMisaligned (pc.setWidth 64)

/-- A data address: the register width is the address width. -/
def dataAddr (addr : Word isa) : BitVec 64 := addr.setWidth 64

def trapCheckAddrAlignment (alignment : Nat) (isLoad : Bool) (addr : BitVec 64) :
    IssM isa World Unit :=
  if addr.toNat % alignment ≠ 0 then
    raiseTrap (if isLoad then .loadAddrMisaligned else .storeAmoAddrMisaligned) addr
  else pure ()

def boolWord (b : Bool) : Word isa := (BitVec.ofBool b).setWidth isa.xlen

/-! ## Integer instructions -/

variable (instr : Instruction)

def execImm (f : Word isa → Word isa → Word isa) : IssM isa World Unit := do
  writeReg instr.rd (f (← readReg instr.rs1) (instr.iImm.signExtend isa.xlen))

def execReg (f : Word isa → Word isa → Word isa) : IssM isa World Unit := do
  writeReg instr.rd (f (← readReg instr.rs1) (← readReg instr.rs2))

def execShamt (f : Word isa → Nat → Word isa) : IssM isa World Unit := do
  writeReg instr.rd (f (← readReg instr.rs1) instr.shamt.toNat)

/-- `RegFile::shamt`: the low five, respectively six, bits. -/
def regShamt : {isa : Isa} → Word isa → Nat
  | .rv32, x => (x.extractLsb' 0 5).toNat
  | .rv64, x => (x.extractLsb' 0 6).toNat

/-- A 32-bit operation of the RV64 core; its result is sign-extended. -/
def execRegW (f : BitVec 32 → BitVec 32 → BitVec 32) : IssM isa World Unit := do
  let a ← readReg instr.rs1
  let b ← readReg instr.rs2
  writeReg instr.rd ((f (a.setWidth 32) (b.setWidth 32)).signExtend isa.xlen)

def execImmW (f : BitVec 32 → BitVec 32) : IssM isa World Unit := do
  writeReg instr.rd ((f ((← readReg instr.rs1).setWidth 32)).signExtend isa.xlen)

/-- `RegFile::shamt_w`. -/
def shamtW (x : BitVec 32) : Nat := (x.extractLsb' 0 5).toNat

def execLui : IssM isa World Unit := writeReg instr.rd (instr.uImm.signExtend isa.xlen)

def execAuipc : IssM isa World Unit := do
  writeReg instr.rd ((← Exec.read lastPc) + instr.uImm.signExtend isa.xlen)

def execJal : IssM isa World Unit := do
  let link ← Exec.read pc
  setPc ((← Exec.read lastPc) + instr.jImm.signExtend isa.xlen)
  trapCheckPcAlignment
  writeReg instr.rd link

def execJalr : IssM isa World Unit := do
  let link ← Exec.read pc
  setPc (((← readReg instr.rs1) + instr.iImm.signExtend isa.xlen) &&& ~~~1)
  trapCheckPcAlignment
  writeReg instr.rd link

def execBranch (taken : Word isa → Word isa → Bool) : IssM isa World Unit := do
  let a ← readReg instr.rs1
  let b ← readReg instr.rs2
  if taken a b then
    setPc ((← Exec.read lastPc) + instr.bImm.signExtend isa.xlen)
    trapCheckPcAlignment

/-- The high half of a product of operands widened to twice their width. -/
def mulHigh (a b : BitVec (2 * isa.xlen)) : Word isa := ((a * b) >>> isa.xlen).setWidth isa.xlen

section Division

variable {w : Nat}

def divSigned (a b : BitVec w) : BitVec w :=
  if b = 0 then -1 else if a = BitVec.intMin w ∧ b = -1 then a else a.sdiv b

def divUnsigned (a b : BitVec w) : BitVec w := if b = 0 then -1 else a / b

def remSigned (a b : BitVec w) : BitVec w :=
  if b = 0 then a else if a = BitVec.intMin w ∧ b = -1 then 0 else a.srem b

def remUnsigned (a b : BitVec w) : BitVec w := if b = 0 then a else a % b

end Division

/-! ## Memory instructions -/

variable (plat : Platform World)

def execLoad (bytes : Nat) (extend : BitVec (8 * bytes) → Word isa) : IssM isa World Unit := do
  let addr := dataAddr ((← readReg instr.rs1) + instr.iImm.signExtend isa.xlen)
  trapCheckAddrAlignment bytes true addr
  writeReg instr.rd (extend (← loadData plat addr bytes))

def execStore (bytes : Nat) : IssM isa World Unit := do
  let addr := dataAddr ((← readReg instr.rs1) + instr.sImm.signExtend isa.xlen)
  trapCheckAddrAlignment bytes false addr
  storeData plat addr bytes ((← readReg instr.rs2).setWidth (8 * bytes))

def execLr (bytes : Nat) : IssM isa World Unit := do
  let addr := dataAddr (← readReg instr.rs1)
  trapCheckAddrAlignment bytes true addr
  writeReg instr.rd ((← atomicLoadReservedData plat addr bytes).signExtend isa.xlen)
  -- this instruction and 16 more, to cover the forward-progress property
  if (← Exec.read lrScCounter) = 0 then setLrScCounter 17

def execSc (bytes : Nat) : IssM isa World Unit := do
  let addr := dataAddr (← readReg instr.rs1)
  trapCheckAddrAlignment bytes false addr
  let val := (← readReg instr.rs2).setWidth (8 * bytes)
  -- failure by default, in case a trap is thrown
  writeReg instr.rd 1
  let stored ← atomicStoreConditionalData plat addr bytes val
  writeReg instr.rd (if stored then 0 else 1)
  setLrScCounter 0

/-- The `catch` clause of `execute_amo`. -/
def amoFault {α : Type} : Exc → IssM isa World α
  | .trap e =>
      if e.reason = .loadAccessFault then raiseTrap .storeAmoAccessFault e.mtval
      else raiseTrap e.reason e.mtval
  | e => Exec.raise e

def executeAmo (bytes : Nat) (operation : BitVec (8 * bytes) → BitVec (8 * bytes) →
    BitVec (8 * bytes)) : IssM isa World Unit := do
  let addr := dataAddr (← readReg instr.rs1)
  trapCheckAddrAlignment bytes false addr
  let data ← (atomicLoadData plat addr bytes).tryCatch amoFault
  let val := operation data ((← readReg instr.rs2).setWidth (8 * bytes))
  atomicStoreData plat addr bytes val
  writeReg instr.rd (data.signExtend isa.xlen)

def executeAmoW (operation : BitVec 32 → BitVec 32 → BitVec 32) : IssM isa World Unit := do
  requireIsa (Misa.A isa)
  executeAmo instr plat 4 operation

def executeAmoD (operation : BitVec 64 → BitVec 64 → BitVec 64) : IssM isa World Unit :=
  onlyRv64 (executeAmo instr plat 8 operation)

section Amo

variable {w : Nat} (a b : BitVec w)

def amoSwap : BitVec w := let _ := a; b
def amoMin : BitVec w := if b.slt a then b else a
def amoMinu : BitVec w := if b.ult a then b else a
def amoMax : BitVec w := if a.slt b then b else a
def amoMaxu : BitVec w := if a.ult b then b else a

end Amo

/-! ## Floating-point instructions -/

def execFlw : IssM isa World Unit := do
  requireIsa (Misa.F isa)
  let addr := dataAddr ((← readReg instr.rs1) + instr.iImm.signExtend isa.xlen)
  trapCheckAddrAlignment 4 true addr
  writeF32 instr.rd (← loadData plat addr 4)

def execFsw : IssM isa World Unit := do
  requireIsa (Misa.F isa)
  let addr := dataAddr ((← readReg instr.rs1) + instr.sImm.signExtend isa.xlen)
  trapCheckAddrAlignment 4 false addr
  storeData plat addr 4 (← readU32 instr.rs2)

def execFld : IssM isa World Unit := do
  requireIsa (Misa.D isa)
  let addr := dataAddr ((← readReg instr.rs1) + instr.iImm.signExtend isa.xlen)
  trapCheckAddrAlignment 8 true addr
  writeF64 instr.rd (← loadData plat addr 8)

def execFsd : IssM isa World Unit := do
  requireIsa (Misa.D isa)
  let addr := dataAddr ((← readReg instr.rs1) + instr.sImm.signExtend isa.xlen)
  trapCheckAddrAlignment 8 false addr
  storeData plat addr 8 (← readF64 instr.rs2)

/-- An instruction that rounds: `body` between the checks and the flag update. -/
def fpRounding (ext : Word isa) (body : IssM isa World Unit) : IssM isa World Unit := do
  requireIsa ext
  fpPrepareInstr
  fpSetupRm instr
  body
  fpFinishInstr

/-- An instruction that writes an FP register but does not round. -/
def fpMoving (ext : Word isa) (body : IssM isa World Unit) : IssM isa World Unit := do
  requireIsa ext
  fpPrepareInstr
  body
  fpSetDirty

/-- A comparison: it can raise flags and writes an integer register. -/
def fpComparing (ext : Word isa) (body : IssM isa World Unit) : IssM isa World Unit := do
  requireIsa ext
  fpPrepareInstr
  body
  fpUpdateExceptionFlags

def f32Binary (f : BitVec 8 → BitVec 32 → BitVec 32 → BitVec 32 × BitVec 8) :
    IssM isa World Unit :=
  fpRounding instr (Misa.F isa) do
    let a ← readF32 instr.rs1
    let b ← readF32 instr.rs2
    writeF32 instr.rd (← softfloat (f (← roundingMode) a b))

def f64Binary (f : BitVec 8 → BitVec 64 → BitVec 64 → BitVec 64 × BitVec 8) :
    IssM isa World Unit :=
  fpRounding instr (Misa.D isa) do
    let a ← readF64 instr.rs1
    let b ← readF64 instr.rs2
    writeF64 instr.rd (← softfloat (f (← roundingMode) a b))

/-- The four fused instructions negate the product, the addend, or both. -/
def f32Fused (negProduct negAddend : BitVec 32 → BitVec 32) : IssM isa World Unit :=
  fpRounding instr (Misa.F isa) do
    let a ← readF32 instr.rs1
    let b ← readF32 instr.rs2
    let c ← readF32 instr.rs3
    writeF32 instr.rd
      (← softfloat (plat.softfloat.f32MulAdd (← roundingMode) (negProduct a) b (negAddend c)))

def f64Fused (negProduct negAddend : BitVec 64 → BitVec 64) : IssM isa World Unit :=
  fpRounding instr (Misa.D isa) do
    let a ← readF64 instr.rs1
    let b ← readF64 instr.rs2
    let c ← readF64 instr.rs3
    writeF64 instr.rd
      (← softfloat (plat.softfloat.f64MulAdd (← roundingMode) (negProduct a) b (negAddend c)))

/-- `f32_lt_quiet(a, b) || (f32_eq(a, b) && f32_isNegative(a))`, evaluated from the left. -/
def f32Before (a b : BitVec 32) : IssM isa World Bool := do
  if ← softfloat (plat.softfloat.f32LtQuiet a b) then return true
  else return (← softfloat (plat.softfloat.f32Eq a b)) && F32.isNegative a

def f64Before (a b : BitVec 64) : IssM isa World Bool := do
  if ← softfloat (plat.softfloat.f64LtQuiet a b) then return true
  else return (← softfloat (plat.softfloat.f64Eq a b)) && F64.isNegative a

/-- `FMIN_S` and `FMAX_S`, by the comparison that makes the first operand the result. -/
def f32Select (first : BitVec 32 → BitVec 32 → IssM isa World Bool) : IssM isa World Unit := do
  requireIsa (Misa.F isa)
  fpPrepareInstr
  let a ← readF32 instr.rs1
  let b ← readF32 instr.rs2
  let rs1First ← first a b
  writeF32 instr.rd
    (if F32.isNaN a && F32.isNaN b then F32.defaultNaN else if rs1First then a else b)
  fpFinishInstr

def f64Select (first : BitVec 64 → BitVec 64 → IssM isa World Bool) : IssM isa World Unit := do
  requireIsa (Misa.D isa)
  fpPrepareInstr
  let a ← readF64 instr.rs1
  let b ← readF64 instr.rs2
  let rs1First ← first a b
  writeF64 instr.rd
    (if F64.isNaN a && F64.isNaN b then F64.defaultNaN else if rs1First then a else b)
  fpFinishInstr

def f32Sign (f : BitVec 32 → BitVec 32 → BitVec 32) : IssM isa World Unit :=
  fpMoving (Misa.F isa) do
    let a ← readF32 instr.rs1
    let b ← readF32 instr.rs2
    writeF32 instr.rd (f a b)

def f64Sign (f : BitVec 64 → BitVec 64 → BitVec 64) : IssM isa World Unit :=
  fpMoving (Misa.D isa) do
    let a ← readF64 instr.rs1
    let b ← readF64 instr.rs2
    writeF64 instr.rd (f a b)

def f32Compare (f : BitVec 32 → BitVec 32 → Bool × BitVec 8) : IssM isa World Unit :=
  fpComparing (Misa.F isa) do
    let a ← readF32 instr.rs1
    let b ← readF32 instr.rs2
    writeReg instr.rd (boolWord (← softfloat (f a b)))

def f64Compare (f : BitVec 64 → BitVec 64 → Bool × BitVec 8) : IssM isa World Unit :=
  fpComparing (Misa.D isa) do
    let a ← readF64 instr.rs1
    let b ← readF64 instr.rs2
    writeReg instr.rd (boolWord (← softfloat (f a b)))

/-- A conversion to an integer register. -/
def fpToInt {n m : Nat} (ext : Word isa) (source : BitVec 32 → IssM isa World (BitVec n))
    (f : BitVec 8 → BitVec n → BitVec m × BitVec 8) : IssM isa World Unit :=
  fpRounding instr ext do
    let a ← source instr.rs1
    writeReg instr.rd ((← softfloat (f (← roundingMode) a)).signExtend isa.xlen)

/-- A conversion from an integer register. -/
def intToFp {n m : Nat} (ext : Word isa) (target : BitVec 32 → BitVec m → IssM isa World Unit)
    (f : BitVec 8 → BitVec n → BitVec m × BitVec 8) : IssM isa World Unit :=
  fpRounding instr ext do
    let a ← readReg instr.rs1
    target instr.rd (← softfloat (f (← roundingMode) (a.setWidth n)))

/-- A conversion between FP registers, or a square root. -/
def fpUnary {n m : Nat} (ext : Word isa) (source : BitVec 32 → IssM isa World (BitVec n))
    (target : BitVec 32 → BitVec m → IssM isa World Unit)
    (f : BitVec 8 → BitVec n → BitVec m × BitVec 8) : IssM isa World Unit :=
  fpRounding instr ext do
    let a ← source instr.rs1
    target instr.rd (← softfloat (f (← roundingMode) a))

/-- A move or classification into an integer register: no flag, no dirty bit. -/
def fpInspect (ext : Word isa) (value : IssM isa World (Word isa)) : IssM isa World Unit := do
  requireIsa ext
  fpPrepareInstr
  writeReg instr.rd (← value)

/-! ## System instructions -/

def executeSyscall : IssM isa World Unit := do
  let e ← Exec.read (hasExtension Misa.extE)
  let number ← readReg (if isa = .rv32 ∧ e then 15 else 17)
  let a3 ← readReg 13
  let a2 ← readReg 12
  let a1 ← readReg 11
  let a0 ← readReg 10
  let result ← onWorld (Exec.call (plat.executeSyscall (number.setWidth 64) (a0.setWidth 64)
    (a1.setWidth 64) (a2.setWidth 64) (a3.setWidth 64)))
  -- the RV32 register write casts the sign-extended `int` to `uint32_t`, checked
  assert (isa = .rv32 → 0 ≤ result.1.toInt) .lexicalCast
  writeReg 10 (result.1.signExtend isa.xlen)
  if result.2 then Exec.update fun s => { s with shallExit := true }

def execEcall : IssM isa World Unit := do
  if plat.hasSys then executeSyscall plat
  else
    let pc := (← Exec.read lastPc).setWidth 64
    let prv ← Exec.read prv
    if prv = machineMode then raiseTrap .ecallMMode pc
    else if prv = supervisorMode then raiseTrap .ecallSMode pc
    else if prv = userMode then raiseTrap .ecallUMode pc
    else abort .unknownPrivilegeLevel

/-- `CSRRW` and `CSRRWI`: the old value is only read for a destination other than `x0`. -/
def execCsrWrite (operand : IssM isa World (Word isa)) : IssM isa World Unit := do
  let addr := instr.csr.setWidth 12
  if ← isInvalidCsrAccess addr true then raiseIllegalInstruction
  else
    let value ← operand
    Exec.when (regIndex instr.rd ≠ 0) do writeReg instr.rd (← getCsrValue plat addr)
    setCsrValue addr value

/-- `CSRRS`, `CSRRC` and their immediate forms: no write when the operand field is zero. -/
def execCsrModify (operand : IssM isa World (Word isa)) (f : Word isa → Word isa → Word isa) :
    IssM isa World Unit := do
  let addr := instr.csr.setWidth 12
  let write := regIndex instr.rs1 ≠ 0
  if ← isInvalidCsrAccess addr (decide write) then raiseIllegalInstruction
  else
    let value ← operand
    let old ← getCsrValue plat addr
    Exec.when (regIndex instr.rd ≠ 0) (writeReg instr.rd old)
    if write then setCsrValue addr (f old value)

def zimmWord : IssM isa World (Word isa) := return instr.zimm.setWidth isa.xlen

def releaseLrScReservation : IssM isa World Unit := do
  setLrScCounter 0
  atomicUnlock plat

def hasLocalPendingEnabledInterrupts (s : Iss isa World) : Bool :=
  s.csrs.reg .mie &&& s.csrs.reg .mip != 0

def execWfi : IssM isa World Unit := do
  releaseLrScReservation plat
  Exec.when ((← Exec.read sMode) && (← readField .mstatus Mstatus.tw) == 1#1)
    raiseIllegalInstruction
  Exec.when ((← Exec.read uMode) && (← Exec.read (hasExtension Misa.extS)))
    raiseIllegalInstruction
  if !(← Exec.read ignoreWfi) && !(← Exec.read hasLocalPendingEnabledInterrupts) then
    onWorld (Platform.await plat.waitForInterrupt)

def execSfenceVma : IssM isa World Unit := do
  Exec.when ((← Exec.read sMode) && (← readField .mstatus Mstatus.tvm) == 1#1)
    raiseIllegalInstruction
  memFlushTlb plat

def returnFromMachineMode : IssM isa World Unit := do
  setPrv (← readField .mstatus Mstatus.mpp)
  writeField .mstatus Mstatus.mie (← readField .mstatus Mstatus.mpie)
  writeField .mstatus Mstatus.mpie 1#1
  setPc (← readCsr .mepc)
  let user ← Exec.read (hasExtension Misa.extU)
  writeField .mstatus Mstatus.mpp (if user then userMode else machineMode)

def returnFromSupervisorMode : IssM isa World Unit := do
  setPrv ((← readField .mstatus Mstatus.spp).setWidth 2)
  writeField .mstatus Mstatus.sie (← readField .mstatus Mstatus.spie)
  writeField .mstatus Mstatus.spie 1#1
  setPc (← readCsr .sepc)
  let user ← Exec.read (hasExtension Misa.extU)
  writeField .mstatus Mstatus.spp (if user then 0#1 else 1#1)

def returnFromUserMode : IssM isa World Unit := do
  setPrv userMode
  writeField .mstatus Mstatus.uie (← readField .mstatus Mstatus.upie)
  writeField .mstatus Mstatus.upie 1#1
  setPc (← readCsr .uepc)

def execUret : IssM isa World Unit := do
  Exec.when (!(← Exec.read (hasExtension Misa.extU))) raiseIllegalInstruction
  returnFromUserMode

def execSret : IssM isa World Unit := do
  let s ← Exec.read (hasExtension Misa.extS)
  Exec.when (!s || ((← Exec.read sMode) && (← readField .mstatus Mstatus.tsr) == 1#1))
    raiseIllegalInstruction
  returnFromSupervisorMode

/-! ## The switch -/

def exec : Mapping → IssM isa World Unit
  | .undef => raiseIllegalInstruction
  | .addi => execImm instr (· + ·)
  | .slti => execImm instr fun a b => boolWord (a.slt b)
  | .sltiu => execImm instr fun a b => boolWord (a.ult b)
  | .xori => execImm instr (· ^^^ ·)
  | .ori => execImm instr (· ||| ·)
  | .andi => execImm instr (· &&& ·)
  | .add => execReg instr (· + ·)
  | .sub => execReg instr (· - ·)
  | .sll => execReg instr fun a b => a <<< regShamt b
  | .slt => execReg instr fun a b => boolWord (a.slt b)
  | .sltu => execReg instr fun a b => boolWord (a.ult b)
  | .srl => execReg instr fun a b => a >>> regShamt b
  | .sra => execReg instr fun a b => a.sshiftRight (regShamt b)
  | .xor => execReg instr (· ^^^ ·)
  | .or => execReg instr (· ||| ·)
  | .and => execReg instr (· &&& ·)
  | .slli => execShamt instr (· <<< ·)
  | .srli => execShamt instr (· >>> ·)
  | .srai => execShamt instr fun a n => a.sshiftRight n
  | .lui => execLui instr
  | .auipc => execAuipc instr
  | .jal => execJal instr
  | .jalr => execJalr instr
  | .sb => execStore instr plat 1
  | .sh => execStore instr plat 2
  | .sw => execStore instr plat 4
  | .sd => onlyRv64 (execStore instr plat 8)
  | .lb => execLoad instr plat 1 (·.signExtend isa.xlen)
  | .lh => execLoad instr plat 2 (·.signExtend isa.xlen)
  | .lw => execLoad instr plat 4 (·.signExtend isa.xlen)
  | .ld => onlyRv64 (execLoad instr plat 8 (·.signExtend isa.xlen))
  | .lbu => execLoad instr plat 1 (·.setWidth isa.xlen)
  | .lhu => execLoad instr plat 2 (·.setWidth isa.xlen)
  | .lwu => onlyRv64 (execLoad instr plat 4 (·.setWidth isa.xlen))
  | .beq => execBranch instr (· == ·)
  | .bne => execBranch instr (· != ·)
  | .blt => execBranch instr fun a b => a.slt b
  | .bge => execBranch instr fun a b => !a.slt b
  | .bltu => execBranch instr fun a b => a.ult b
  | .bgeu => execBranch instr fun a b => !a.ult b
  | .addiw => onlyRv64 (execImmW instr (· + instr.iImm))
  | .slliw => onlyRv64 (execImmW instr (· <<< instr.shamtW.toNat))
  | .srliw => onlyRv64 (execImmW instr (· >>> instr.shamtW.toNat))
  | .sraiw => onlyRv64 (execImmW instr fun a => a.sshiftRight instr.shamtW.toNat)
  | .addw => onlyRv64 (execRegW instr (· + ·))
  | .subw => onlyRv64 (execRegW instr (· - ·))
  | .sllw => onlyRv64 (execRegW instr fun a b => a <<< shamtW b)
  | .srlw => onlyRv64 (execRegW instr fun a b => a >>> shamtW b)
  | .sraw => onlyRv64 (execRegW instr fun a b => a.sshiftRight (shamtW b))
  | .fence | .fenceI => pure ()
  | .ecall => execEcall plat
  | .ebreak => setStatus .hitBreakpoint
  | .csrrw => execCsrWrite instr plat (readReg instr.rs1)
  | .csrrs => execCsrModify instr plat (readReg instr.rs1) (· ||| ·)
  | .csrrc => execCsrModify instr plat (readReg instr.rs1) fun old v => old &&& ~~~v
  | .csrrwi => execCsrWrite instr plat (zimmWord instr)
  | .csrrsi => execCsrModify instr plat (zimmWord instr) (· ||| ·)
  -- `~zimm` has the 32 bits of `zimm`
  | .csrrci => execCsrModify instr plat (zimmWord instr) fun old _ =>
      old &&& (~~~instr.zimm).setWidth isa.xlen
  | .mul => do requireIsa (Misa.M isa); execReg instr (· * ·)
  | .mulh => do
      requireIsa (Misa.M isa)
      execReg instr fun a b => mulHigh (a.signExtend _) (b.signExtend _)
  | .mulhu => do
      requireIsa (Misa.M isa)
      execReg instr fun a b => mulHigh (a.setWidth _) (b.setWidth _)
  | .mulhsu => do
      requireIsa (Misa.M isa)
      execReg instr fun a b => mulHigh (a.signExtend _) (b.setWidth _)
  | .div => do requireIsa (Misa.M isa); execReg instr divSigned
  | .divu => do requireIsa (Misa.M isa); execReg instr divUnsigned
  | .rem => do requireIsa (Misa.M isa); execReg instr remSigned
  | .remu => do requireIsa (Misa.M isa); execReg instr remUnsigned
  | .mulw => onlyRv64 (execRegW instr (· * ·))
  | .divw => onlyRv64 (execRegW instr divSigned)
  | .divuw => onlyRv64 (execRegW instr divUnsigned)
  | .remw => onlyRv64 (execRegW instr remSigned)
  | .remuw => onlyRv64 (execRegW instr remUnsigned)
  | .lrW => do requireIsa (Misa.A isa); execLr instr plat 4
  | .scW => do requireIsa (Misa.A isa); execSc instr plat 4
  | .amoswapW => executeAmoW instr plat amoSwap
  | .amoaddW => executeAmoW instr plat (· + ·)
  | .amoxorW => executeAmoW instr plat (· ^^^ ·)
  | .amoandW => executeAmoW instr plat (· &&& ·)
  | .amoorW => executeAmoW instr plat (· ||| ·)
  | .amominW => executeAmoW instr plat amoMin
  | .amominuW => executeAmoW instr plat amoMinu
  | .amomaxW => executeAmoW instr plat amoMax
  | .amomaxuW => executeAmoW instr plat amoMaxu
  | .lrD => onlyRv64 (execLr instr plat 8)
  | .scD => onlyRv64 (execSc instr plat 8)
  | .amoswapD => executeAmoD instr plat amoSwap
  | .amoaddD => executeAmoD instr plat (· + ·)
  | .amoxorD => executeAmoD instr plat (· ^^^ ·)
  | .amoandD => executeAmoD instr plat (· &&& ·)
  | .amoorD => executeAmoD instr plat (· ||| ·)
  | .amominD => executeAmoD instr plat amoMin
  | .amominuD => executeAmoD instr plat amoMinu
  | .amomaxD => executeAmoD instr plat amoMax
  | .amomaxuD => executeAmoD instr plat amoMaxu
  | .flw => execFlw instr plat
  | .fsw => execFsw instr plat
  | .faddS => f32Binary instr plat.softfloat.f32Add
  | .fsubS => f32Binary instr plat.softfloat.f32Sub
  | .fmulS => f32Binary instr plat.softfloat.f32Mul
  | .fdivS => f32Binary instr plat.softfloat.f32Div
  | .fsqrtS => fpUnary instr (Misa.F isa) readF32 writeF32 plat.softfloat.f32Sqrt
  | .fminS => f32Select instr (f32Before plat)
  | .fmaxS => f32Select instr fun a b => f32Before plat b a
  | .fmaddS => f32Fused instr plat id id
  | .fmsubS => f32Fused instr plat id F32.neg
  | .fnmaddS => f32Fused instr plat F32.neg F32.neg
  | .fnmsubS => f32Fused instr plat F32.neg id
  | .fcvtWS => fpToInt instr (Misa.F isa) readF32 plat.softfloat.f32ToI32
  | .fcvtWuS => fpToInt instr (Misa.F isa) readF32 plat.softfloat.f32ToUi32
  | .fcvtSW => intToFp instr (Misa.F isa) writeF32 plat.softfloat.i32ToF32
  | .fcvtSWu => intToFp instr (Misa.F isa) writeF32 plat.softfloat.ui32ToF32
  | .fsgnjS => f32Sign instr fun a b => (a &&& ~~~F32.signBit) ||| (b &&& F32.signBit)
  | .fsgnjnS => f32Sign instr fun a b => (a &&& ~~~F32.signBit) ||| (~~~b &&& F32.signBit)
  | .fsgnjxS => f32Sign instr fun a b => a ^^^ (b &&& F32.signBit)
  | .fmvWX => fpMoving (Misa.F isa) do
      writeF32 instr.rd ((← readReg instr.rs1).setWidth 32)
  | .fmvXW => fpInspect instr (Misa.F isa) do
      return (← readU32 instr.rs1).signExtend isa.xlen
  | .feqS => f32Compare instr plat.softfloat.f32Eq
  | .fltS => f32Compare instr plat.softfloat.f32Lt
  | .fleS => f32Compare instr plat.softfloat.f32Le
  | .fclassS => fpInspect instr (Misa.F isa) do
      return (plat.softfloat.f32Classify (← readF32 instr.rs1)).signExtend isa.xlen
  | .fcvtLS => onlyRv64 (fpToInt instr (Misa.F isa) readF32 plat.softfloat.f32ToI64)
  | .fcvtLuS => onlyRv64 (fpToInt instr (Misa.F isa) readF32 plat.softfloat.f32ToUi64)
  | .fcvtSL => onlyRv64 (intToFp instr (Misa.F isa) writeF32 plat.softfloat.i64ToF32)
  | .fcvtSLu => onlyRv64 (intToFp instr (Misa.F isa) writeF32 plat.softfloat.ui64ToF32)
  | .fld => execFld instr plat
  | .fsd => execFsd instr plat
  | .faddD => f64Binary instr plat.softfloat.f64Add
  | .fsubD => f64Binary instr plat.softfloat.f64Sub
  | .fmulD => f64Binary instr plat.softfloat.f64Mul
  | .fdivD => f64Binary instr plat.softfloat.f64Div
  | .fsqrtD => fpUnary instr (Misa.D isa) readF64 writeF64 plat.softfloat.f64Sqrt
  | .fminD => f64Select instr (f64Before plat)
  | .fmaxD => f64Select instr fun a b => f64Before plat b a
  | .fmaddD => f64Fused instr plat id id
  | .fmsubD => f64Fused instr plat id F64.neg
  | .fnmaddD => f64Fused instr plat F64.neg F64.neg
  | .fnmsubD => f64Fused instr plat F64.neg id
  | .fsgnjD => f64Sign instr fun a b => (a &&& ~~~F64.signBit) ||| (b &&& F64.signBit)
  | .fsgnjnD => f64Sign instr fun a b => (a &&& ~~~F64.signBit) ||| (~~~b &&& F64.signBit)
  | .fsgnjxD => f64Sign instr fun a b => a ^^^ (b &&& F64.signBit)
  | .feqD => f64Compare instr plat.softfloat.f64Eq
  | .fltD => f64Compare instr plat.softfloat.f64Lt
  | .fleD => f64Compare instr plat.softfloat.f64Le
  | .fclassD => fpInspect instr (Misa.D isa) do
      return (plat.softfloat.f64Classify (← readF64 instr.rs1)).setWidth isa.xlen
  | .fmvDX => onlyRv64 (fpMoving (Misa.D isa) do
      writeF64 instr.rd ((← readReg instr.rs1).setWidth 64))
  | .fmvXD => onlyRv64 (fpInspect instr (Misa.D isa) do
      return (← readF64 instr.rs1).setWidth isa.xlen)
  | .fcvtWD => fpToInt instr (Misa.D isa) readF64 plat.softfloat.f64ToI32
  | .fcvtWuD => fpToInt instr (Misa.D isa) readF64 plat.softfloat.f64ToUi32
  | .fcvtDW => intToFp instr (Misa.D isa) writeF64 plat.softfloat.i32ToF64
  | .fcvtDWu => intToFp instr (Misa.D isa) writeF64 plat.softfloat.ui32ToF64
  | .fcvtSD => fpUnary instr (Misa.D isa) readF64 writeF32 plat.softfloat.f64ToF32
  | .fcvtDS => fpUnary instr (Misa.D isa) readF32 writeF64 plat.softfloat.f32ToF64
  | .fcvtLD => onlyRv64 (fpToInt instr (Misa.D isa) readF64 plat.softfloat.f64ToI64)
  | .fcvtLuD => onlyRv64 (fpToInt instr (Misa.D isa) readF64 plat.softfloat.f64ToUi64)
  | .fcvtDL => onlyRv64 (intToFp instr (Misa.D isa) writeF64 plat.softfloat.i64ToF64)
  | .fcvtDLu => onlyRv64 (intToFp instr (Misa.D isa) writeF64 plat.softfloat.ui64ToF64)
  | .wfi => execWfi plat
  | .sfenceVma => execSfenceVma plat
  | .uret => execUret
  | .sret => execSret
  | .mret => returnFromMachineMode

/-! ## Fetch, decode, execute -/

/-- The `catch` clause of the fetch: a `SimulationTrap` leaves no instruction behind. -/
def fetchFault {α : Type} : Exc → IssM isa World α
  | .trap e => do
      setOp .undef
      setInstr 0
      Exec.raise (.trap e)
  | e => Exec.raise e

def fetch : IssM isa World Unit := do
  let pc ← Exec.read pc
  let memWord ← (loadInstr plat (pc.setWidth 64)).tryCatch fetchFault
  setInstr memWord

/-- Decodes the fetched word, expanding a compressed one in place, and steps the `pc`. -/
def decode : IssM isa World Unit := do
  let instr ← Exec.read Iss.instr
  let pc ← Exec.read pc
  if instr.isCompressed then
    match instr.decodeAndExpandCompressed isa.arch with
    | .ok (op, word) =>
        setInstr word
        setOp op
        setPc (pc + 2)
        if op ≠ .undef then requireIsa (Misa.C isa)
    | .error _ => abort .decode
  else
    setOp (instr.decodeNormal isa.arch)
    setPc (pc + 4)

def execStep : IssM isa World Unit := do
  let s ← Exec.read fun s => s
  assert (s.pc &&& ~~~s.pcAlignmentMask = 0) .misalignedInstruction
  fetch plat
  decode
  exec (← Exec.read Iss.instr) plat (← Exec.read Iss.op)

end RiscvVp.Iss
