/-
# RiscvVp.Instr.Rvc -- the compressed format of the specification

`operands` reads a halfword as the RVC tables do: which bits are which operand, and
which halfwords are no instruction of the architecture.  It is written over the
halfword alone and shares nothing with the decoder.
-/
import RiscvVp.Lib.Switch
import RiscvVp.Lib.OrHom
import RiscvVp.Instr.Instruction

namespace RiscvVp.Rvc

open RiscvVp.Lib

set_option autoImplicit false

/-- The operands of an expansion, by instruction format. -/
inductive Operands where
  | none
  | r (rd rs1 rs2 : BitVec 32)
  | i (rd rs1 imm : BitVec 32)
  | s (rs1 rs2 imm : BitVec 32)
  | b (rs1 rs2 imm : BitVec 32)
  | u (rd imm : BitVec 32)
  | j (rd imm : BitVec 32)
  | shift (rd rs1 shamt : BitVec 32)
deriving DecidableEq, Repr

open Instruction in
/-- The accessors of `Instruction` read these operands from the word. -/
def Operands.ReadFrom (word : Instruction) : Operands → Prop
  | .none => True
  | .r dst src1 src2 => rd word = dst ∧ rs1 word = src1 ∧ rs2 word = src2
  | .i dst src imm => rd word = dst ∧ rs1 word = src ∧ iImm word = imm
  | .s src1 src2 imm => rs1 word = src1 ∧ rs2 word = src2 ∧ sImm word = imm
  | .b src1 src2 imm => rs1 word = src1 ∧ rs2 word = src2 ∧ bImm word = imm
  | .u dst imm => rd word = dst ∧ uImm word = imm
  | .j dst imm => rd word = dst ∧ jImm word = imm
  | .shift dst src amount => rd word = dst ∧ rs1 word = src ∧ shamt word = amount

instance (word : Instruction) (expected : Operands) : Decidable (expected.ReadFrom word) := by
  cases expected <;> unfold Operands.ReadFrom <;> infer_instance

section Fields

variable (h : BitVec 16)

/-- Bits `hi` to `lo`. -/
abbrev bits (hi lo : Nat) : BitVec (hi - lo + 1) := h.extractLsb' lo (hi - lo + 1)

def quadrant : BitVec 2 := bits h 1 0

def funct3 : BitVec 3 := bits h 15 13

/-- `rd` and `rs1` share a field. -/
def rd : BitVec 32 := (bits h 11 7).setWidth 32

def rs2 : BitVec 32 := (bits h 6 2).setWidth 32

/-- The three-bit fields name `x8` to `x15`. -/
def rs1Short : BitVec 32 := 8 + (bits h 9 7).setWidth 32

def rs2Short : BitVec 32 := 8 + (bits h 4 2).setWidth 32

/-! ## Immediates, most significant bit first -/

def imm6 : BitVec 32 := (bits h 12 12 ++ bits h 6 2).signExtend 32

def shamt : BitVec 32 := (bits h 12 12 ++ bits h 6 2).setWidth 32

def uimmAddi4spn : BitVec 32 :=
  (bits h 10 7 ++ bits h 12 11 ++ bits h 5 5 ++ bits h 6 6 ++ 0#2).setWidth 32

def uimmWord : BitVec 32 := (bits h 5 5 ++ bits h 12 10 ++ bits h 6 6 ++ 0#2).setWidth 32

def uimmDouble : BitVec 32 := (bits h 6 5 ++ bits h 12 10 ++ 0#3).setWidth 32

def uimmWordLoadSp : BitVec 32 := (bits h 3 2 ++ bits h 12 12 ++ bits h 6 4 ++ 0#2).setWidth 32

def uimmDoubleLoadSp : BitVec 32 := (bits h 4 2 ++ bits h 12 12 ++ bits h 6 5 ++ 0#3).setWidth 32

def uimmWordStoreSp : BitVec 32 := (bits h 8 7 ++ bits h 12 9 ++ 0#2).setWidth 32

def uimmDoubleStoreSp : BitVec 32 := (bits h 9 7 ++ bits h 12 10 ++ 0#3).setWidth 32

def immAddi16sp : BitVec 32 :=
  (bits h 12 12 ++ bits h 4 3 ++ bits h 5 5 ++ bits h 2 2 ++ bits h 6 6 ++ 0#4).signExtend 32

def immLui : BitVec 32 := (bits h 12 12 ++ bits h 6 2 ++ 0#12).signExtend 32

def immJump : BitVec 32 :=
  (bits h 12 12 ++ bits h 8 8 ++ bits h 10 9 ++ bits h 6 6 ++ bits h 7 7 ++ bits h 2 2 ++
    bits h 11 11 ++ bits h 5 3 ++ 0#1).signExtend 32

def immBranch : BitVec 32 :=
  (bits h 12 12 ++ bits h 6 5 ++ bits h 2 2 ++ bits h 11 10 ++ bits h 4 3 ++ 0#1).signExtend 32

end Fields

/-- An instruction unless its encoding is reserved. -/
def unlessReserved {α : Type} (reserved : Bool) (expansion : α) : Option α :=
  if reserved then none else some expansion

/-- Quadrant zero. -/
def operands0 (arch : Architecture) (h : BitVec 16) : Option Operands :=
  switch (funct3 h)
    [ -- C.ADDI4SPN; the all-zero halfword is one of its reserved encodings
     (0b000, unlessReserved (uimmAddi4spn h = 0) (.i (rs2Short h) 2 (uimmAddi4spn h))),
     -- C.FLD, C.LW
     (0b001, some (.i (rs2Short h) (rs1Short h) (uimmDouble h))),
     (0b010, some (.i (rs2Short h) (rs1Short h) (uimmWord h))),
     -- C.FLW on RV32, C.LD on RV64
     (0b011, some (.i (rs2Short h) (rs1Short h)
        (if arch = .rv32 then uimmWord h else uimmDouble h))),
     -- C.FSD, C.SW
     (0b101, some (.s (rs1Short h) (rs2Short h) (uimmDouble h))),
     (0b110, some (.s (rs1Short h) (rs2Short h) (uimmWord h))),
     -- C.FSW on RV32, C.SD on RV64
     (0b111, some (.s (rs1Short h) (rs2Short h)
        (if arch = .rv32 then uimmWord h else uimmDouble h)))]
    none

/-- Quadrant one. -/
def operands1 (arch : Architecture) (h : BitVec 16) : Option Operands :=
  switch (funct3 h)
    [ -- C.NOP, C.ADDI
     (0b000, some (.i (rd h) (rd h) (imm6 h))),
     -- C.JAL on RV32, C.ADDIW on RV64
     (0b001,
        if arch = .rv32 then some (.j 1 (immJump h))
        else unlessReserved (rd h = 0) (.i (rd h) (rd h) (imm6 h))),
     -- C.LI
     (0b010, some (.i (rd h) 0 (imm6 h))),
     -- C.ADDI16SP, C.LUI
     (0b011,
        if rd h = 2 then unlessReserved (immAddi16sp h = 0) (.i 2 2 (immAddi16sp h))
        else unlessReserved (immLui h = 0) (.u (rd h) (immLui h))),
     (0b100, switch (bits h 11 10)
        [ -- C.SRLI, C.SRAI; RV32 has no shift amounts from 32 on
         (0b00, unlessReserved (arch = .rv32 ∧ bits h 12 12 = 1)
            (.shift (rs1Short h) (rs1Short h) (shamt h))),
         (0b01, unlessReserved (arch = .rv32 ∧ bits h 12 12 = 1)
            (.shift (rs1Short h) (rs1Short h) (shamt h))),
         -- C.ANDI
         (0b10, some (.i (rs1Short h) (rs1Short h) (imm6 h))),
         -- C.SUB, C.XOR, C.OR, C.AND; then C.SUBW and C.ADDW, which RV32 has not
         (0b11,
            unlessReserved (bits h 12 12 = 1 ∧
                (arch = .rv32 ∨ bits h 6 5 = 0b10 ∨ bits h 6 5 = 0b11))
              (.r (rs1Short h) (rs1Short h) (rs2Short h)))]
        none),
     -- C.J, C.BEQZ, C.BNEZ
     (0b101, some (.j 0 (immJump h))),
     (0b110, some (.b (rs1Short h) 0 (immBranch h))),
     (0b111, some (.b (rs1Short h) 0 (immBranch h)))]
    none

/-- Quadrant two. -/
def operands2 (arch : Architecture) (h : BitVec 16) : Option Operands :=
  switch (funct3 h)
    [ -- C.SLLI
     (0b000, unlessReserved (arch = .rv32 ∧ bits h 12 12 = 1) (.shift (rd h) (rd h) (shamt h))),
     -- C.FLDSP, C.LWSP
     (0b001, some (.i (rd h) 2 (uimmDoubleLoadSp h))),
     (0b010, unlessReserved (rd h = 0) (.i (rd h) 2 (uimmWordLoadSp h))),
     -- C.FLWSP on RV32, C.LDSP on RV64
     (0b011,
        if arch = .rv32 then some (.i (rd h) 2 (uimmWordLoadSp h))
        else unlessReserved (rd h = 0) (.i (rd h) 2 (uimmDoubleLoadSp h))),
     (0b100,
        if bits h 12 12 = 0 then
          -- C.JR, C.MV
          if rs2 h = 0 then unlessReserved (rd h = 0) (.i 0 (rd h) 0)
          else some (.r (rd h) 0 (rs2 h))
        else
          -- C.EBREAK, C.JALR, C.ADD
          if rs2 h = 0 then if rd h = 0 then some .none else some (.i 1 (rd h) 0)
          else some (.r (rd h) (rd h) (rs2 h))),
     -- C.FSDSP, C.SWSP
     (0b101, some (.s 2 (rs2 h) (uimmDoubleStoreSp h))),
     (0b110, some (.s 2 (rs2 h) (uimmWordStoreSp h))),
     -- C.FSWSP on RV32, C.SDSP on RV64
     (0b111, some (.s 2 (rs2 h)
        (if arch = .rv32 then uimmWordStoreSp h else uimmDoubleStoreSp h)))]
    none

/-- The operands of a legal halfword of the architecture; `none` if it is illegal or
reserved there. -/
def operands (arch : Architecture) (h : BitVec 16) : Option Operands :=
  switch (quadrant h) [(0, operands0 arch h), (1, operands1 arch h), (2, operands2 arch h)] none

end RiscvVp.Rvc
