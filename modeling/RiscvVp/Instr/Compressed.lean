/-
# RiscvVp.Instr.Compressed -- expanding a halfword into an instruction word

`decode_compressed` names the compressed form, `expand_compressed` overwrites the
word with a 32-bit instruction built by `InstructionFactory` and returns the opcode
to execute.  The opcode and the word are written down separately, arm by arm; an
answer `UNDEF` leaves the fetched word in place.
-/
import RiscvVp.Lib.Switch
import RiscvVp.Instr.Instruction

namespace RiscvVp

open RiscvVp.Lib

set_option autoImplicit false

/-- `Compressed::Opcode`. -/
inductive Compressed where
  -- quadrant zero
  | cIllegal | cReserved | cAddi4spn | cFld | cLq | cLw | cFlw | cLd | cFsd | cSq | cSw | cFsw | cSd
  -- quadrant one
  | cNop | cAddi | cJal | cAddiw | cLi | cAddi16sp | cLui | cSrli | cSrai | cAndi | cSub | cXor
  | cOr | cAnd | cSubw | cAddw | cJ | cBeqz | cBnez
  -- quadrant two
  | cSlli | cFldsp | cLqsp | cLwsp | cFlwsp | cLdsp | cJr | cMv | cEbreak | cJalr | cAdd | cFsdsp
  | cSqsp | cSwsp | cFswsp | cSdsp
deriving DecidableEq, Repr

/-- The two `std::runtime_error`s of the compressed path. -/
inductive CompressedError where
  | compressedExpected
  | notHandled
deriving DecidableEq, Repr

/-! ## Immediates of the compressed forms -/

section Immediates

variable (n : BitVec 32)

def cAddi4spnNzuimm : BitVec 32 :=
  (bitSlice n 12 11 <<< 4) ||| (bitSlice n 10 7 <<< 6) ||| (bitSingleP1 n 6 <<< 2) |||
    (bitSingleP1 n 5 <<< 3)

def cLwUimm : BitVec 32 :=
  (bitSlice n 12 10 <<< 3) ||| (bitSingleP1 n 6 <<< 2) ||| (bitSingleP1 n 5 <<< 6)

def cLdUimm : BitVec 32 := (bitSlice n 12 10 <<< 3) ||| (bitSlice n 6 5 <<< 6)

abbrev cSwUimm : BitVec 32 := cLwUimm n

abbrev cSdUimm : BitVec 32 := cLdUimm n

def cJalImm : BitVec 32 :=
  extractSignBit n 12 11 ||| bitSinglePN n 11 4 ||| (bitSlice n 10 9 <<< 8) |||
    bitSinglePN n 8 10 ||| bitSinglePN n 7 6 ||| bitSinglePN n 6 7 ||| (bitSlice n 5 3 <<< 1) |||
    bitSinglePN n 2 5

def cAddi16spNzimm : BitVec 32 :=
  extractSignBit n 12 9 ||| bitSinglePN n 6 4 ||| bitSinglePN n 5 6 ||| (bitSlice n 4 3 <<< 7) |||
    bitSinglePN n 2 5

def cLuiNzimm : BitVec 32 := extractSignBit n 12 17 ||| (bitSlice n 6 2 <<< 12)

abbrev cJImm : BitVec 32 := cJalImm n

def cBranchImm : BitVec 32 :=
  extractSignBit n 12 8 ||| (bitSlice n 11 10 <<< 3) ||| (bitSlice n 6 5 <<< 6) |||
    (bitSlice n 4 3 <<< 1) ||| bitSinglePN n 2 5

def cLwspUimm : BitVec 32 :=
  bitSinglePN n 12 5 ||| (bitSlice n 6 4 <<< 2) ||| (bitSlice n 3 2 <<< 6)

def cSwspUimm : BitVec 32 := (bitSlice n 12 9 <<< 2) ||| (bitSlice n 8 7 <<< 6)

def cLdspUimm : BitVec 32 :=
  bitSinglePN n 12 5 ||| (bitSlice n 6 5 <<< 3) ||| (bitSlice n 4 2 <<< 6)

def cSdspUimm : BitVec 32 := (bitSlice n 12 10 <<< 3) ||| (bitSlice n 9 7 <<< 6)

end Immediates

/-! ## Building instruction words

One builder per format; the members of `InstructionFactory` fix its constants. -/

namespace InstructionFactory

def rType (opcode funct3 funct7 rd rs1 rs2 : BitVec 32) : Instruction :=
  ((rd &&& 0x1f) <<< 7) ||| ((rs1 &&& 0x1f) <<< 15) ||| ((rs2 &&& 0x1f) <<< 20) ||| opcode |||
    (funct3 <<< 12) ||| (funct7 <<< 25)

def iType (opcode funct3 rd rs1 imm : BitVec 32) : Instruction :=
  ((imm &&& 4095) <<< 20) ||| ((rd &&& 0x1f) <<< 7) ||| ((rs1 &&& 0x1f) <<< 15) ||| opcode |||
    (funct3 <<< 12)

def sType (opcode funct3 rs1 rs2 imm : BitVec 32) : Instruction :=
  ((imm &&& 0b11111) <<< 7) ||| ((imm &&& 0b1111111#32 <<< 5) <<< 20) |||
    ((rs1 &&& 0x1f) <<< 15) ||| ((rs2 &&& 0x1f) <<< 20) ||| opcode ||| (funct3 <<< 12)

def bType (funct3 rs1 rs2 imm : BitVec 32) : Instruction :=
  ((imm &&& 0b11110) <<< 7) ||| (imm &&& 1#32 <<< 11).sshiftRight 4 |||
    ((imm &&& 0b111111#32 <<< 5) <<< 20) ||| ((imm &&& 1#32 <<< 12) <<< 19) |||
    ((rs1 &&& 0x1f) <<< 15) ||| ((rs2 &&& 0x1f) <<< 20) ||| 99 ||| (funct3 <<< 12)

def shiftType (funct3 funct7 rd rs1 shamt : BitVec 32) : Instruction :=
  ((rd &&& 0x1f) <<< 7) ||| ((rs1 &&& 0x1f) <<< 15) ||| ((shamt &&& 63) <<< 20) ||| 19 |||
    (funct3 <<< 12) ||| (funct7 <<< 25)

abbrev add := rType 51 0 0

abbrev and := rType 51 7 0

abbrev or := rType 51 6 0

abbrev xor := rType 51 4 0

abbrev sub := rType 51 0 32

abbrev lw := iType 3 2

abbrev ld := iType 3 3

abbrev flw := iType 7 2

abbrev fld := iType 7 3

abbrev sw := sType 35 2

abbrev sd := sType 35 3

abbrev fsw := sType 39 2

abbrev fsd := sType 39 3

def lui (rd imm : BitVec 32) : Instruction :=
  (imm &&& 1048575#32 <<< 12) ||| ((rd &&& 0x1f) <<< 7) ||| 55

abbrev addi := iType 19 0

abbrev andi := iType 19 7

abbrev srli := shiftType 5 0

abbrev srai := shiftType 5 32

abbrev slli := shiftType 1 0

def jal (rd imm : BitVec 32) : Instruction :=
  111 ||| ((rd &&& 0x1f) <<< 7) |||
    ((imm &&& 0b11111111#32 <<< 12) ||| ((imm &&& 1#32 <<< 11) <<< 9) |||
      ((imm &&& 0b11111111110) <<< 20) ||| ((imm &&& 1#32 <<< 20) <<< 11))

abbrev jalr := iType 103 0

abbrev beq := bType 0

abbrev bne := bType 1

def ebreak : Instruction := 1048691

abbrev addw := rType 0x3b 0 0

/-- The source sets bit 30 by `0x40000000`, which is `funct7 = 32`. -/
abbrev subw := rType 0x3b 0 32

end InstructionFactory

/-! ## Naming the form, expanding it -/

namespace Instruction

/-- `decode_compressed`.  A `break` out of the inner switches ends in `C_Illegal`. -/
def decodeCompressed (instr : Instruction) (arch : Architecture) :
    Except CompressedError Compressed :=
  switch (quadrant instr)
    [(0, switch (cOpcode instr)
        [(0b000, .ok (if cFormat instr = 0 then .cIllegal else .cAddi4spn)),
         (0b001, .ok .cFld),
         (0b010, .ok .cLw),
         (0b011, .ok (if arch = .rv32 then .cFlw else .cLd)),
         (0b100, .ok .cReserved),
         (0b101, .ok .cFsd),
         (0b110, .ok .cSw),
         (0b111, .ok (if arch = .rv32 then .cFsw else .cSd))]
        (.ok .cIllegal)),
     (1, switch (cOpcode instr)
        [(0b000, .ok (if cFormat instr = 1 then .cNop else .cAddi)),
         (0b001, .ok (if arch = .rv32 then .cJal else .cAddiw)),
         (0b010, .ok .cLi),
         (0b011, .ok (if cRd instr = 2 then .cAddi16sp else .cLui)),
         (0b100, switch (cF2High instr)
            [(0b00, .ok .cSrli),
             (0b01, .ok .cSrai),
             (0b10, .ok .cAndi),
             (0b11,
                if cB12 instr ≠ 0 then
                  switch (cF2Low instr) [(0b00, .ok .cSubw), (0b01, .ok .cAddw)] (.ok .cReserved)
                else
                  switch (cF2Low instr)
                    [(0b00, .ok .cSub), (0b01, .ok .cXor), (0b10, .ok .cOr), (0b11, .ok .cAnd)]
                    (.ok .cIllegal))]
            (.ok .cIllegal)),
         (0b101, .ok .cJ),
         (0b110, .ok .cBeqz),
         (0b111, .ok .cBnez)]
        (.ok .cIllegal)),
     (2, switch (cOpcode instr)
        [(0b000, .ok .cSlli),
         (0b001, .ok .cFldsp),
         (0b010, .ok .cLwsp),
         (0b011, .ok (if arch = .rv32 then .cFlwsp else .cLdsp)),
         (0b100, .ok (
            if cB12 instr ≠ 0 then
              if cRd instr ≠ 0 then if cRs2 instr ≠ 0 then .cAdd else .cJalr else .cEbreak
            else
              if cRs2 instr ≠ 0 then .cMv else .cJr)),
         (0b101, .ok .cFsdsp),
         (0b110, .ok .cSwsp),
         (0b111, .ok (if arch = .rv32 then .cFswsp else .cSdsp))]
        (.ok .cIllegal)),
     (3, .error .compressedExpected)]
    (.ok .cIllegal)

/-- `if (...) return UNDEF;`: the word is left as it was fetched. -/
def reservedOr (instr : Instruction) (reserved : Bool) (expansion : Mapping × Instruction) :
    Mapping × Instruction :=
  if reserved then (.undef, instr) else expansion

open InstructionFactory in
/-- `expand_compressed`: the opcode to execute and the word that replaces `instr`. -/
def expandCompressed (instr : Instruction) (op : Compressed) (arch : Architecture) :
    Except CompressedError (Mapping × Instruction) :=
  switch op
    [(.cIllegal, .ok (.undef, instr)),
     (.cLq, .ok (.undef, instr)), (.cLqsp, .ok (.undef, instr)),
     (.cSq, .ok (.undef, instr)), (.cSqsp, .ok (.undef, instr)),
     (.cReserved, .ok (.undef, instr)),
     (.cNop, .ok (.add, add 0 0 0)),
     (.cAdd, .ok (.add, add (cRd instr) (cRd instr) (cRs2 instr))),
     (.cMv, .ok (.add, add (cRd instr) 0 (cRs2 instr))),
     (.cAnd, .ok (.and, and (cRdSmall instr) (cRdSmall instr) (cRs2Small instr))),
     (.cOr, .ok (.or, or (cRdSmall instr) (cRdSmall instr) (cRs2Small instr))),
     (.cXor, .ok (.xor, xor (cRdSmall instr) (cRdSmall instr) (cRs2Small instr))),
     (.cSub, .ok (.sub, sub (cRdSmall instr) (cRdSmall instr) (cRs2Small instr))),
     (.cAddw, .ok (.addw, addw (cRdSmall instr) (cRdSmall instr) (cRs2Small instr))),
     (.cSubw, .ok (.subw, subw (cRdSmall instr) (cRdSmall instr) (cRs2Small instr))),
     (.cLw, .ok (.lw, lw (cRs2Small instr) (cRdSmall instr) (cLwUimm instr))),
     (.cLd, .ok (.ld, ld (cRs2Small instr) (cRdSmall instr) (cLdUimm instr))),
     (.cFlw, .ok (.flw, flw (cRs2Small instr) (cRdSmall instr) (cLwUimm instr))),
     (.cFld, .ok (.fld, fld (cRs2Small instr) (cRdSmall instr) (cLdUimm instr))),
     (.cSw, .ok (.sw, sw (cRdSmall instr) (cRs2Small instr) (cSwUimm instr))),
     (.cSd, .ok (.sd, sd (cRdSmall instr) (cRs2Small instr) (cSdUimm instr))),
     (.cFsw, .ok (.fsw, fsw (cRdSmall instr) (cRs2Small instr) (cSwUimm instr))),
     (.cFsd, .ok (.fsd, fsd (cRdSmall instr) (cRs2Small instr) (cSdUimm instr))),
     (.cAddi4spn, .ok (reservedOr instr (cAddi4spnNzuimm instr = 0)
        (.addi, addi (cRs2Small instr) 2 (cAddi4spnNzuimm instr)))),
     (.cAddi, .ok (.addi, addi (cRd instr) (cRd instr) (cImm instr))),
     (.cJal, .ok (.jal, jal 1 (cJalImm instr))),
     -- rebuilt as an ADDI, returned as an ADDIW
     (.cAddiw, .ok (reservedOr instr (cRd instr = 0)
        (.addiw, addi (cRd instr) (cRd instr) (cImm instr)))),
     (.cLi, .ok (.addi, addi (cRd instr) 0 (cImm instr))),
     (.cAddi16sp, .ok (reservedOr instr (cAddi16spNzimm instr = 0)
        (.addi, addi 2 2 (cAddi16spNzimm instr)))),
     (.cLui, .ok (reservedOr instr (cLuiNzimm instr = 0)
        (.lui, lui (cRd instr) (cLuiNzimm instr)))),
     (.cSlli, .ok (reservedOr instr (arch = .rv32 ∧ cUimm instr > 31)
        (.slli, slli (cRd instr) (cRd instr) (cUimm instr)))),
     (.cSrli, .ok (reservedOr instr (arch = .rv32 ∧ cUimm instr > 31)
        (.srli, srli (cRdSmall instr) (cRdSmall instr) (cUimm instr)))),
     (.cSrai, .ok (reservedOr instr (arch = .rv32 ∧ cUimm instr > 31)
        (.srai, srai (cRdSmall instr) (cRdSmall instr) (cUimm instr)))),
     (.cAndi, .ok (.andi, andi (cRdSmall instr) (cRdSmall instr) (cImm instr))),
     (.cJ, .ok (.jal, jal 0 (cJImm instr))),
     (.cBeqz, .ok (.beq, beq (cRdSmall instr) 0 (cBranchImm instr))),
     (.cBnez, .ok (.bne, bne (cRdSmall instr) 0 (cBranchImm instr))),
     (.cLwsp, .ok (reservedOr instr (cRd instr = 0) (.lw, lw (cRd instr) 2 (cLwspUimm instr)))),
     (.cLdsp, .ok (reservedOr instr (cRd instr = 0) (.ld, ld (cRd instr) 2 (cLdspUimm instr)))),
     (.cFlwsp, .ok (.flw, flw (cRd instr) 2 (cLwspUimm instr))),
     (.cFldsp, .ok (.fld, fld (cRd instr) 2 (cLdspUimm instr))),
     (.cSwsp, .ok (.sw, sw 2 (cRs2 instr) (cSwspUimm instr))),
     (.cSdsp, .ok (.sd, sd 2 (cRs2 instr) (cSdspUimm instr))),
     (.cFswsp, .ok (.fsw, fsw 2 (cRs2 instr) (cSwspUimm instr))),
     (.cFsdsp, .ok (.fsd, fsd 2 (cRs2 instr) (cSdspUimm instr))),
     (.cEbreak, .ok (.ebreak, ebreak)),
     (.cJr, .ok (reservedOr instr (cRd instr = 0) (.jalr, jalr 0 (cRd instr) 0))),
     (.cJalr, .ok (.jalr, jalr 1 (cRd instr) 0))]
    (.error .notHandled)

/-- `Instruction::decode_and_expand_compressed`. -/
def decodeAndExpandCompressed (arch : Architecture) (instr : Instruction) :
    Except CompressedError (Mapping × Instruction) := do
  let cOp ← decodeCompressed instr arch
  expandCompressed instr cOp arch

theorem decodeAndExpandCompressed_ok {arch : Architecture} {instr : Instruction} {cOp : Compressed}
    {result : Mapping × Instruction} (form : decodeCompressed instr arch = .ok cOp)
    (expands : expandCompressed instr cOp arch = .ok result) :
    decodeAndExpandCompressed arch instr = .ok result := by
  simp only [decodeAndExpandCompressed, form, bind, Except.bind, expands]

end Instruction

end RiscvVp
