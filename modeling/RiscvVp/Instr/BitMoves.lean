/-
# RiscvVp.Instr.BitMoves -- accessors and builders move bits

The accessors of `Instruction`, the immediate scramblers of the compressed forms and
the builders of `InstructionFactory` only move bits about and set constants.  With
that recorded once per definition, any identity between compositions of them is
`OrHom.ext` and a check of thirty-three words.
-/
import RiscvVp.Lib.OrHom
import RiscvVp.Instr.Compressed

namespace RiscvVp

open RiscvVp.Lib

set_option autoImplicit false

section Accessors

variable {m : Nat} {f : BitVec m → BitVec 32} [OrHom f]

instance (upper lower : Nat) : OrHom fun x => bitRange (f x) upper lower := by
  unfold bitRange
  infer_instance

instance (upper lower : Nat) : OrHom fun x => bitSlice (f x) upper lower := by
  unfold bitSlice
  infer_instance

instance (pos : Nat) : OrHom fun x => bitSingle (f x) pos := by
  unfold bitSingle
  infer_instance

instance (pos : Nat) : OrHom fun x => bitSingleP1 (f x) pos := by
  unfold bitSingleP1
  infer_instance

instance (pos newPos : Nat) : OrHom fun x => bitSinglePN (f x) pos newPos := by
  unfold bitSinglePN
  infer_instance

instance (pos newPos : Nat) : OrHom fun x => extractSignBit (f x) pos newPos := by
  unfold extractSignBit
  infer_instance

namespace Instruction

instance : OrHom fun x => rd (f x) := by
  unfold rd
  infer_instance

instance : OrHom fun x => rs1 (f x) := by
  unfold rs1
  infer_instance

instance : OrHom fun x => rs2 (f x) := by
  unfold rs2
  infer_instance

instance : OrHom fun x => shamt (f x) := by
  unfold shamt
  infer_instance

instance : OrHom fun x => iImm (f x) := by
  unfold iImm
  infer_instance

instance : OrHom fun x => sImm (f x) := by
  unfold sImm
  infer_instance

instance : OrHom fun x => bImm (f x) := by
  unfold bImm
  infer_instance

instance : OrHom fun x => uImm (f x) := by
  unfold uImm
  infer_instance

instance : OrHom fun x => jImm (f x) := by
  unfold jImm
  infer_instance

end Instruction

end Accessors

/-! ## Compressed fields

They are only ever read from the fetched word. -/

instance : OrHom Instruction.rd := by
  unfold Instruction.rd
  infer_instance

instance : OrHom Instruction.quadrant := by
  unfold Instruction.quadrant
  infer_instance

instance : OrHom Instruction.cFormat := by
  unfold Instruction.cFormat
  infer_instance

instance : OrHom Instruction.cOpcode := by
  unfold Instruction.cOpcode
  infer_instance

instance : OrHom Instruction.cB12 := by
  unfold Instruction.cB12
  infer_instance

instance : OrHom Instruction.cRdSmall := by
  unfold Instruction.cRdSmall
  infer_instance

instance : OrHom Instruction.cRs2Small := by
  unfold Instruction.cRs2Small
  infer_instance

instance : OrHom Instruction.cRs2 := by
  unfold Instruction.cRs2
  infer_instance

instance : OrHom Instruction.cImm := by
  unfold Instruction.cImm
  infer_instance

instance : OrHom Instruction.cUimm := by
  unfold Instruction.cUimm
  infer_instance

instance : OrHom Instruction.cF2High := by
  unfold Instruction.cF2High
  infer_instance

instance : OrHom Instruction.cF2Low := by
  unfold Instruction.cF2Low
  infer_instance

instance : OrHom cAddi4spnNzuimm := by
  unfold cAddi4spnNzuimm
  infer_instance

instance : OrHom cLwUimm := by
  unfold cLwUimm
  infer_instance

instance : OrHom cLdUimm := by
  unfold cLdUimm
  infer_instance

instance : OrHom cJalImm := by
  unfold cJalImm
  infer_instance

instance : OrHom cAddi16spNzimm := by
  unfold cAddi16spNzimm
  infer_instance

instance : OrHom cLuiNzimm := by
  unfold cLuiNzimm
  infer_instance

instance : OrHom cBranchImm := by
  unfold cBranchImm
  infer_instance

instance : OrHom cLwspUimm := by
  unfold cLwspUimm
  infer_instance

instance : OrHom cSwspUimm := by
  unfold cSwspUimm
  infer_instance

instance : OrHom cLdspUimm := by
  unfold cLdspUimm
  infer_instance

instance : OrHom cSdspUimm := by
  unfold cSdspUimm
  infer_instance

/-! ## The builders of `InstructionFactory` -/

namespace InstructionFactory

variable {m : Nat} {f g h : BitVec m → BitVec 32} [OrHom f] [OrHom g] [OrHom h]

instance (opcode funct3 funct7 : BitVec 32) : OrHom fun x => rType opcode funct3 funct7 (f x) (g x) (h x) := by
  unfold rType
  infer_instance

instance (opcode funct3 : BitVec 32) : OrHom fun x => iType opcode funct3 (f x) (g x) (h x) := by
  unfold iType
  infer_instance

instance (opcode funct3 : BitVec 32) : OrHom fun x => sType opcode funct3 (f x) (g x) (h x) := by
  unfold sType
  infer_instance

instance (funct3 : BitVec 32) : OrHom fun x => bType funct3 (f x) (g x) (h x) := by
  unfold bType
  infer_instance

instance (funct3 funct7 : BitVec 32) : OrHom fun x => shiftType funct3 funct7 (f x) (g x) (h x) := by
  unfold shiftType
  infer_instance

instance : OrHom fun x => lui (f x) (g x) := by
  unfold lui
  infer_instance

instance : OrHom fun x => jal (f x) (g x) := by
  unfold jal
  infer_instance

end InstructionFactory

end RiscvVp
