/-
# RiscvVp.Iss.Fp -- floating-point registers and the framing of an FP instruction

`FpRegs` of `fp.h` (a single is kept NaN-boxed in a 64-bit register) and the `fp_*`
functions of the core.  The floating-point library keeps its exception flags and its
rounding mode in global variables; every call may add flags.
-/
import RiscvVp.Iss.Csr

namespace RiscvVp

set_option autoImplicit false

open Lib

namespace F32

def defaultNaN : BitVec 32 := 0x7fc00000
def signBit : BitVec 32 := 1#32 <<< 31
def isNegative (x : BitVec 32) : Bool := x &&& signBit != 0
def neg (x : BitVec 32) : BitVec 32 := x ^^^ signBit

def isNaN (x : BitVec 32) : Bool :=
  ~~~x &&& 0x7F800000 == 0 && x &&& 0x007FFFFF != 0

end F32

namespace F64

def defaultNaN : BitVec 64 := 0x7FF8000000000000
def signBit : BitVec 64 := 1#64 <<< 63
def isNegative (x : BitVec 64) : Bool := x &&& signBit != 0
def neg (x : BitVec 64) : BitVec 64 := x ^^^ signBit

def isNaN (x : BitVec 64) : Bool :=
  ~~~x &&& 0x7FF0000000000000 == 0 && x &&& 0x000FFFFFFFFFFFFF != 0

end F64

/-- `box_f32`. -/
def boxF32 (x : BitVec 32) : BitVec 64 := x.setWidth 64 ||| 0xFFFFFFFF00000000

/-- `FpRegs::f32`: a register that holds no boxed single reads as the canonical NaN. -/
def unboxF32 (x : BitVec 64) : BitVec 32 :=
  if x >>> 32 = 0xFFFFFFFF then x.setWidth 32 else F32.defaultNaN

namespace Iss

variable {isa : Isa} {World : Type}

/-! ## Registers -/

/-- The index of a register field. -/
def regIndex (field : BitVec 32) : BitVec 5 := field.setWidth 5

def readReg (field : BitVec 32) : IssM isa World (Word isa) :=
  Exec.read fun s => s.regs (regIndex field)

@[simp] theorem run_readReg_bind {α : Type} (field : BitVec 32) (k : Word isa → IssM isa World α)
    (s : Iss isa World) : (readReg field >>= k).run s = (k (s.regs (regIndex field))).run s := rfl

def writeReg (field : BitVec 32) (value : Word isa) : IssM isa World Unit :=
  Exec.update (setReg (regIndex field) value)

def readF64 (field : BitVec 32) : IssM isa World (BitVec 64) :=
  Exec.read fun s => s.fpRegs (regIndex field)

def readF32 (field : BitVec 32) : IssM isa World (BitVec 32) :=
  Exec.read fun s => unboxF32 (s.fpRegs (regIndex field))

/-- `FpRegs::u32`: the raw low half. -/
def readU32 (field : BitVec 32) : IssM isa World (BitVec 32) :=
  Exec.read fun s => (s.fpRegs (regIndex field)).setWidth 32

def writeF64 (field : BitVec 32) (value : BitVec 64) : IssM isa World Unit :=
  Exec.update (setFpReg (regIndex field) value)

def writeF32 (field : BitVec 32) (value : BitVec 32) : IssM isa World Unit :=
  writeF64 field (boxF32 value)

/-! ## The frame of an FP instruction -/

/-- A call of the library: the flags it raises are added to the global ones. -/
def softfloat {α : Type} (call : α × BitVec 8) : IssM isa World α := do
  Exec.update fun s =>
    { s with softfloatExceptionFlags := s.softfloatExceptionFlags ||| call.2 }
  return call.1

def roundingMode : IssM isa World (BitVec 8) := Exec.read softfloatRoundingMode

def fpSetDirty : IssM isa World Unit := do
  writeField .mstatus (Mstatus.sd isa) 1#1
  writeField .mstatus Mstatus.fs 3#2

def fpRequireNotOff : IssM isa World Unit := do
  if (← readField .mstatus Mstatus.fs) = 0#2 then raiseIllegalInstruction

def fpPrepareInstr : IssM isa World Unit := do
  let flags ← Exec.read softfloatExceptionFlags
  assert (flags = 0) .softfloatFlags
  fpRequireNotOff

def fpUpdateExceptionFlags : IssM isa World Unit := do
  let flags ← Exec.read softfloatExceptionFlags
  if flags ≠ 0 then
    fpSetDirty
    writeField .fcsr Fcsr.fflags ((← readField .fcsr Fcsr.fflags) ||| flags.setWidth 5)
    Exec.update fun s => { s with softfloatExceptionFlags := 0 }

def fpFinishInstr : IssM isa World Unit := do
  fpSetDirty
  fpUpdateExceptionFlags

/-- `FRM_DYN` selects the mode of `fcsr`; from `FRM_RMM` on a mode is illegal. -/
def fpSetupRm (instr : Instruction) : IssM isa World Unit := do
  let dynamic ← readField .fcsr Fcsr.frm
  let rm := if instr.frm = 7 then dynamic.setWidth 8 else instr.frm.setWidth 8
  if rm ≥ 4 then raiseIllegalInstruction
  else Exec.update fun s => { s with softfloatRoundingMode := rm }

end Iss

end RiscvVp
