/-
# RiscvVp.Instr.Opcode -- what the decoder can answer, and the encoding table

`Opcode::Mapping` is the enumeration both instruction-set simulators switch on;
`undef` is the answer for a word that is no instruction.  `instr.cpp` opens with
one `*_MASK` / `*_ENCODING` pair per mapping, the decoder's final test
(`MATCH_AND_RETURN_INSTR`) and, on its own, a complete description of the
instruction set.  The three shifts by an immediate have a second pair for RV32,
where the shift amount is a bit shorter: same encodings, one more mask bit.
-/
import Mathlib.Data.Fintype.Defs

namespace RiscvVp

set_option autoImplicit false

/-- The `Architecture` enumeration of `core_defs.h`. -/
inductive Architecture where
  | rv32 | rv64 | rv128
deriving DecidableEq, Repr

/-- The opcodes of `Opcode::Mapping`, in the order of `instr.h`. -/
inductive Mapping where
  | undef
  -- RV32I base instruction set
  | lui | auipc | jal | jalr | beq | bne | blt | bge | bltu | bgeu | lb | lh | lw | lbu | lhu
  | sb | sh | sw | addi | slti | sltiu | xori | ori | andi | slli | srli | srai | add | sub | sll
  | slt | sltu | xor | srl | sra | or | and | fence | ecall | ebreak
  -- Zifencei standard extension
  | fenceI
  -- Zicsr standard extension
  | csrrw | csrrs | csrrc | csrrwi | csrrsi | csrrci
  -- RV32M standard extension
  | mul | mulh | mulhsu | mulhu | div | divu | rem | remu
  -- RV32A standard extension
  | lrW | scW | amoswapW | amoaddW | amoxorW | amoandW | amoorW | amominW | amomaxW | amominuW
  | amomaxuW
  -- RV64I base integer set (addition to RV32I)
  | lwu | ld | sd | addiw | slliw | srliw | sraiw | addw | subw | sllw | srlw | sraw
  -- RV64M standard extension (addition to RV32M)
  | mulw | divw | divuw | remw | remuw
  -- RV64A standard extension (addition to RV32A)
  | lrD | scD | amoswapD | amoaddD | amoxorD | amoandD | amoorD | amominD | amomaxD | amominuD
  | amomaxuD
  -- RV32F standard extension
  | flw | fsw | fmaddS | fmsubS | fnmaddS | fnmsubS | faddS | fsubS | fmulS | fdivS | fsqrtS
  | fsgnjS | fsgnjnS | fsgnjxS | fminS | fmaxS | fcvtWS | fcvtWuS | fmvXW | feqS | fltS | fleS
  | fclassS | fcvtSW | fcvtSWu | fmvWX
  -- RV64F standard extension (addition to RV32F)
  | fcvtLS | fcvtLuS | fcvtSL | fcvtSLu
  -- RV32D standard extension
  | fld | fsd | fmaddD | fmsubD | fnmsubD | fnmaddD | faddD | fsubD | fmulD | fdivD | fsqrtD
  | fsgnjD | fsgnjnD | fsgnjxD | fminD | fmaxD | fcvtSD | fcvtDS | feqD | fltD | fleD | fclassD
  | fcvtWD | fcvtWuD | fcvtDW | fcvtDWu
  -- RV64D standard extension (addition to RV32D)
  | fcvtLD | fcvtLuD | fmvXD | fcvtDL | fcvtDLu | fmvDX
  -- privileged instructions
  | uret | sret | mret | wfi | sfenceVma
deriving DecidableEq, Repr

namespace Mapping

/-- The `*_MASK` constants.  `undef` has no entry in the table. -/
def mask : Mapping → BitVec 32
  | .undef => 0
  | .lui | .auipc | .jal =>
      0b00000000000000000000000001111111
  | .jalr | .beq | .bne | .blt | .bge | .bltu | .bgeu | .lb | .lh | .lw | .lbu | .lhu | .sb | .sh
  | .sw | .addi | .slti | .sltiu | .xori | .ori | .andi | .fence | .fenceI | .csrrw | .csrrs
  | .csrrc | .csrrwi | .csrrsi | .csrrci | .lwu | .ld | .sd | .addiw | .flw | .fsw | .fld | .fsd =>
      0b00000000000000000111000001111111
  | .slli | .srli | .srai =>
      0b11111100000000000111000001111111
  | .add | .sub | .sll | .slt | .sltu | .xor | .srl | .sra | .or | .and | .mul | .mulh | .mulhsu
  | .mulhu | .div | .divu | .rem | .remu | .slliw | .srliw | .sraiw | .addw | .subw | .sllw
  | .srlw | .sraw | .mulw | .divw | .divuw | .remw | .remuw | .fsgnjS | .fsgnjnS | .fsgnjxS
  | .fminS | .fmaxS | .feqS | .fltS | .fleS | .fsgnjD | .fsgnjnD | .fsgnjxD | .fminD | .fmaxD
  | .feqD | .fltD | .fleD =>
      0b11111110000000000111000001111111
  | .ecall | .ebreak | .uret | .sret | .mret | .wfi =>
      0b11111111111111111111111111111111
  | .lrW | .lrD =>
      0b11111001111100000111000001111111
  | .scW | .amoswapW | .amoaddW | .amoxorW | .amoandW | .amoorW | .amominW | .amomaxW | .amominuW
  | .amomaxuW | .scD | .amoswapD | .amoaddD | .amoxorD | .amoandD | .amoorD | .amominD | .amomaxD
  | .amominuD | .amomaxuD =>
      0b11111000000000000111000001111111
  | .fmaddS | .fmsubS | .fnmaddS | .fnmsubS | .fmaddD | .fmsubD | .fnmsubD | .fnmaddD =>
      0b00000110000000000000000001111111
  | .faddS | .fsubS | .fmulS | .fdivS | .faddD | .fsubD | .fmulD | .fdivD =>
      0b11111110000000000000000001111111
  | .fsqrtS | .fcvtWS | .fcvtWuS | .fcvtSW | .fcvtSWu | .fcvtLS | .fcvtLuS | .fcvtSL | .fcvtSLu
  | .fsqrtD | .fcvtSD | .fcvtDS | .fcvtWD | .fcvtWuD | .fcvtDW | .fcvtDWu | .fcvtLD | .fcvtLuD
  | .fcvtDL | .fcvtDLu =>
      0b11111111111100000000000001111111
  | .fmvXW | .fclassS | .fmvWX | .fclassD | .fmvXD | .fmvDX =>
      0b11111111111100000111000001111111
  | .sfenceVma =>
      0b11111110000000000111111111111111

/-- The `*_ENCODING` constants. -/
def encoding : Mapping → BitVec 32
  | .undef => 0
  -- RV32I base instruction set
  | .lui => 0b00000000000000000000000000110111
  | .auipc => 0b00000000000000000000000000010111
  | .jal => 0b00000000000000000000000001101111
  | .jalr => 0b00000000000000000000000001100111
  | .beq => 0b00000000000000000000000001100011
  | .bne => 0b00000000000000000001000001100011
  | .blt => 0b00000000000000000100000001100011
  | .bge => 0b00000000000000000101000001100011
  | .bltu => 0b00000000000000000110000001100011
  | .bgeu => 0b00000000000000000111000001100011
  | .lb => 0b00000000000000000000000000000011
  | .lh => 0b00000000000000000001000000000011
  | .lw => 0b00000000000000000010000000000011
  | .lbu => 0b00000000000000000100000000000011
  | .lhu => 0b00000000000000000101000000000011
  | .sb => 0b00000000000000000000000000100011
  | .sh => 0b00000000000000000001000000100011
  | .sw => 0b00000000000000000010000000100011
  | .addi => 0b00000000000000000000000000010011
  | .slti => 0b00000000000000000010000000010011
  | .sltiu => 0b00000000000000000011000000010011
  | .xori => 0b00000000000000000100000000010011
  | .ori => 0b00000000000000000110000000010011
  | .andi => 0b00000000000000000111000000010011
  | .slli => 0b00000000000000000001000000010011
  | .srli => 0b00000000000000000101000000010011
  | .srai => 0b01000000000000000101000000010011
  | .add => 0b00000000000000000000000000110011
  | .sub => 0b01000000000000000000000000110011
  | .sll => 0b00000000000000000001000000110011
  | .slt => 0b00000000000000000010000000110011
  | .sltu => 0b00000000000000000011000000110011
  | .xor => 0b00000000000000000100000000110011
  | .srl => 0b00000000000000000101000000110011
  | .sra => 0b01000000000000000101000000110011
  | .or => 0b00000000000000000110000000110011
  | .and => 0b00000000000000000111000000110011
  | .fence => 0b00000000000000000000000000001111
  | .ecall => 0b00000000000000000000000001110011
  | .ebreak => 0b00000000000100000000000001110011
  -- Zifencei standard extension
  | .fenceI => 0b00000000000000000001000000001111
  -- Zicsr standard extension
  | .csrrw => 0b00000000000000000001000001110011
  | .csrrs => 0b00000000000000000010000001110011
  | .csrrc => 0b00000000000000000011000001110011
  | .csrrwi => 0b00000000000000000101000001110011
  | .csrrsi => 0b00000000000000000110000001110011
  | .csrrci => 0b00000000000000000111000001110011
  -- RV32M standard extension
  | .mul => 0b00000010000000000000000000110011
  | .mulh => 0b00000010000000000001000000110011
  | .mulhsu => 0b00000010000000000010000000110011
  | .mulhu => 0b00000010000000000011000000110011
  | .div => 0b00000010000000000100000000110011
  | .divu => 0b00000010000000000101000000110011
  | .rem => 0b00000010000000000110000000110011
  | .remu => 0b00000010000000000111000000110011
  -- RV32A standard extension
  | .lrW => 0b00010000000000000010000000101111
  | .scW => 0b00011000000000000010000000101111
  | .amoswapW => 0b00001000000000000010000000101111
  | .amoaddW => 0b00000000000000000010000000101111
  | .amoxorW => 0b00100000000000000010000000101111
  | .amoandW => 0b01100000000000000010000000101111
  | .amoorW => 0b01000000000000000010000000101111
  | .amominW => 0b10000000000000000010000000101111
  | .amomaxW => 0b10100000000000000010000000101111
  | .amominuW => 0b11000000000000000010000000101111
  | .amomaxuW => 0b11100000000000000010000000101111
  -- RV64I base integer set (addition to RV32I)
  | .lwu => 0b00000000000000000110000000000011
  | .ld => 0b00000000000000000011000000000011
  | .sd => 0b00000000000000000011000000100011
  | .addiw => 0b00000000000000000000000000011011
  | .slliw => 0b00000000000000000001000000011011
  | .srliw => 0b00000000000000000101000000011011
  | .sraiw => 0b01000000000000000101000000011011
  | .addw => 0b00000000000000000000000000111011
  | .subw => 0b01000000000000000000000000111011
  | .sllw => 0b00000000000000000001000000111011
  | .srlw => 0b00000000000000000101000000111011
  | .sraw => 0b01000000000000000101000000111011
  -- RV64M standard extension (addition to RV32M)
  | .mulw => 0b00000010000000000000000000111011
  | .divw => 0b00000010000000000100000000111011
  | .divuw => 0b00000010000000000101000000111011
  | .remw => 0b00000010000000000110000000111011
  | .remuw => 0b00000010000000000111000000111011
  -- RV64A standard extension (addition to RV32A)
  | .lrD => 0b00010000000000000011000000101111
  | .scD => 0b00011000000000000011000000101111
  | .amoswapD => 0b00001000000000000011000000101111
  | .amoaddD => 0b00000000000000000011000000101111
  | .amoxorD => 0b00100000000000000011000000101111
  | .amoandD => 0b01100000000000000011000000101111
  | .amoorD => 0b01000000000000000011000000101111
  | .amominD => 0b10000000000000000011000000101111
  | .amomaxD => 0b10100000000000000011000000101111
  | .amominuD => 0b11000000000000000011000000101111
  | .amomaxuD => 0b11100000000000000011000000101111
  -- RV32F standard extension
  | .flw => 0b00000000000000000010000000000111
  | .fsw => 0b00000000000000000010000000100111
  | .fmaddS => 0b00000000000000000000000001000011
  | .fmsubS => 0b00000000000000000000000001000111
  | .fnmaddS => 0b00000000000000000000000001001111
  | .fnmsubS => 0b00000000000000000000000001001011
  | .faddS => 0b00000000000000000000000001010011
  | .fsubS => 0b00001000000000000000000001010011
  | .fmulS => 0b00010000000000000000000001010011
  | .fdivS => 0b00011000000000000000000001010011
  | .fsqrtS => 0b01011000000000000000000001010011
  | .fsgnjS => 0b00100000000000000000000001010011
  | .fsgnjnS => 0b00100000000000000001000001010011
  | .fsgnjxS => 0b00100000000000000010000001010011
  | .fminS => 0b00101000000000000000000001010011
  | .fmaxS => 0b00101000000000000001000001010011
  | .fcvtWS => 0b11000000000000000000000001010011
  | .fcvtWuS => 0b11000000000100000000000001010011
  | .fmvXW => 0b11100000000000000000000001010011
  | .feqS => 0b10100000000000000010000001010011
  | .fltS => 0b10100000000000000001000001010011
  | .fleS => 0b10100000000000000000000001010011
  | .fclassS => 0b11100000000000000001000001010011
  | .fcvtSW => 0b11010000000000000000000001010011
  | .fcvtSWu => 0b11010000000100000000000001010011
  | .fmvWX => 0b11110000000000000000000001010011
  -- RV64F standard extension (addition to RV32F)
  | .fcvtLS => 0b11000000001000000000000001010011
  | .fcvtLuS => 0b11000000001100000000000001010011
  | .fcvtSL => 0b11010000001000000000000001010011
  | .fcvtSLu => 0b11010000001100000000000001010011
  -- RV32D standard extension
  | .fld => 0b00000000000000000011000000000111
  | .fsd => 0b00000000000000000011000000100111
  | .fmaddD => 0b00000010000000000000000001000011
  | .fmsubD => 0b00000010000000000000000001000111
  | .fnmsubD => 0b00000010000000000000000001001011
  | .fnmaddD => 0b00000010000000000000000001001111
  | .faddD => 0b00000010000000000000000001010011
  | .fsubD => 0b00001010000000000000000001010011
  | .fmulD => 0b00010010000000000000000001010011
  | .fdivD => 0b00011010000000000000000001010011
  | .fsqrtD => 0b01011010000000000000000001010011
  | .fsgnjD => 0b00100010000000000000000001010011
  | .fsgnjnD => 0b00100010000000000001000001010011
  | .fsgnjxD => 0b00100010000000000010000001010011
  | .fminD => 0b00101010000000000000000001010011
  | .fmaxD => 0b00101010000000000001000001010011
  | .fcvtSD => 0b01000000000100000000000001010011
  | .fcvtDS => 0b01000010000000000000000001010011
  | .feqD => 0b10100010000000000010000001010011
  | .fltD => 0b10100010000000000001000001010011
  | .fleD => 0b10100010000000000000000001010011
  | .fclassD => 0b11100010000000000001000001010011
  | .fcvtWD => 0b11000010000000000000000001010011
  | .fcvtWuD => 0b11000010000100000000000001010011
  | .fcvtDW => 0b11010010000000000000000001010011
  | .fcvtDWu => 0b11010010000100000000000001010011
  -- RV64D standard extension (addition to RV32D)
  | .fcvtLD => 0b11000010001000000000000001010011
  | .fcvtLuD => 0b11000010001100000000000001010011
  | .fmvXD => 0b11100010000000000000000001010011
  | .fcvtDL => 0b11010010001000000000000001010011
  | .fcvtDLu => 0b11010010001100000000000001010011
  | .fmvDX => 0b11110010000000000000000001010011
  -- privileged instructions
  | .uret => 0b00000000001000000000000001110011
  | .sret => 0b00010000001000000000000001110011
  | .mret => 0b00110000001000000000000001110011
  | .wfi => 0b00010000010100000000000001110011
  | .sfenceVma => 0b00010010000000000000000001110011

/-- `SLLI_32_MASK`, `SRLI_32_MASK` and `SRAI_32_MASK`: bit 25 belongs to the
opcode on RV32 and to the shift amount on RV64. -/
def shift32Mask : BitVec 32 := 0b11111110000000000111000001111111

/-- The mask the table holds for an opcode on one architecture. -/
def tableMask (arch : Architecture) (op : Mapping) : BitVec 32 :=
  match arch, op with
  | .rv32, .slli | .rv32, .srli | .rv32, .srai => shift32Mask
  | _, op => op.mask

/-- The table entry of `op` accepts the word. -/
def Matches (arch : Architecture) (op : Mapping) (word : BitVec 32) : Prop :=
  op ≠ .undef ∧ word &&& op.tableMask arch = op.encoding

instance (arch : Architecture) (op : Mapping) (word : BitVec 32) :
    Decidable (op.Matches arch word) :=
  inferInstanceAs (Decidable (_ ∧ _))

end Mapping

end RiscvVp
