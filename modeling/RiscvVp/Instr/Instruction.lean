/-
# RiscvVp.Instr.Instruction -- the fields of an instruction word

The accessors of `struct Instruction`, over the macros `BIT_RANGE`, `BIT_SLICE`
and `BIT_SINGLE`.  The member `instr` is an `int32_t`, so `>>` is the arithmetic
shift unless the accessor casts to `uint32_t` first: that is what sign-extends
the immediates.
-/
import Mathlib.Data.BitVec
import RiscvVp.Instr.Opcode

namespace RiscvVp

set_option autoImplicit false

/-- An instruction word: the member `instr` of `struct Instruction`. -/
abbrev Instruction := BitVec 32

/-! ## The bit macros of `instr.h` -/

def bitMask (upper lower : Nat) : BitVec 32 := (1#32 <<< (upper - lower + 1) - 1#32) <<< lower

def bitRange (x : BitVec 32) (upper lower : Nat) : BitVec 32 := x &&& bitMask upper lower

def bitSlice (x : BitVec 32) (upper lower : Nat) : BitVec 32 :=
  (bitRange x upper lower).sshiftRight lower

def bitSingle (x : BitVec 32) (pos : Nat) : BitVec 32 := x &&& 1#32 <<< pos

def bitSingleP1 (x : BitVec 32) (pos : Nat) : BitVec 32 := (bitSingle x pos).sshiftRight pos

def bitSinglePN (x : BitVec 32) (pos newPos : Nat) : BitVec 32 := bitSingleP1 x pos <<< newPos

def extractSignBit (x : BitVec 32) (pos newPos : Nat) : BitVec 32 :=
  (bitSingleP1 x pos <<< 31).sshiftRight (31 - newPos)

namespace Instruction

variable (instr : Instruction)

/-! ## Compressed fields -/

def quadrant : BitVec 32 := instr &&& 0x3

def isCompressed : Bool := quadrant instr < 3

def rd : BitVec 32 := (bitRange instr 11 7).sshiftRight 7

def cFormat : BitVec 32 := instr &&& 0xffff

def cOpcode : BitVec 32 := bitSlice instr 15 13

def cB12 : BitVec 32 := bitSingleP1 instr 12

abbrev cRd : BitVec 32 := rd instr

def cRdSmall : BitVec 32 := bitSlice instr 9 7 ||| 8

def cRs2Small : BitVec 32 := bitSlice instr 4 2 ||| 8

def cRs2 : BitVec 32 := bitSlice instr 6 2

def cImm : BitVec 32 := bitSlice instr 6 2 ||| extractSignBit instr 12 5

def cUimm : BitVec 32 := bitSlice instr 6 2 ||| (bitSingleP1 instr 12 <<< 5)

def cF2High : BitVec 32 := bitSlice instr 11 10

def cF2Low : BitVec 32 := bitSlice instr 6 5

/-! ## Uncompressed fields -/

def csr : BitVec 32 := bitRange instr 31 20 >>> 20

def zimm : BitVec 32 := (bitRange instr 19 15).sshiftRight 15

def shamt : BitVec 32 := (bitRange instr 25 20).sshiftRight 20

def shamtW : BitVec 32 := (bitRange instr 24 20).sshiftRight 20

def funct2 : BitVec 32 := (bitRange instr 26 25).sshiftRight 25

def funct3 : BitVec 32 := (bitRange instr 14 12).sshiftRight 12

def funct12 : BitVec 32 := bitRange instr 31 20 >>> 20

def funct7 : BitVec 32 := bitRange instr 31 25 >>> 25

def funct6 : BitVec 32 := bitRange instr 31 26 >>> 26

def funct5 : BitVec 32 := bitRange instr 31 27 >>> 27

def frm : BitVec 32 := bitSlice instr 14 12

def opcode : BitVec 32 := bitRange instr 6 0

def jImm : BitVec 32 :=
  (bitSingle instr 31).sshiftRight 11 ||| bitRange instr 19 12 |||
    (bitSingle instr 20).sshiftRight 9 ||| (bitRange instr 30 21).sshiftRight 20

def iImm : BitVec 32 := (bitRange instr 31 20).sshiftRight 20

def sImm : BitVec 32 :=
  (bitRange instr 31 25).sshiftRight 20 ||| (bitRange instr 11 7).sshiftRight 7

def bImm : BitVec 32 :=
  (bitSingle instr 31).sshiftRight 19 ||| (bitSingle instr 7 <<< 4) |||
    (bitRange instr 30 25).sshiftRight 20 ||| (bitRange instr 11 8).sshiftRight 7

def uImm : BitVec 32 := bitRange instr 31 12

def rs1 : BitVec 32 := (bitRange instr 19 15).sshiftRight 15

def rs2 : BitVec 32 := (bitRange instr 24 20).sshiftRight 20

def rs3 : BitVec 32 := bitRange instr 31 27 >>> 27

end Instruction

end RiscvVp
