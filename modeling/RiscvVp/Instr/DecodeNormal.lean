/-
# RiscvVp.Instr.DecodeNormal -- the nested switch is its encoding table

`Instruction::decode_normal` finds an opcode by up to four nested switches over
the fields of the word, and every arm ends in `MATCH_AND_RETURN_INSTR`, which
compares the whole word with the table entry of the opcode it is about to
return.  The final comparison makes every answer right; whether every word that
has an entry *reaches* its arm is a question about the switches.

* `decodeNormal_matches`: an answer other than `undef` is the table's.
* `decodeNormal_of_matches`: a word with an entry reaches that entry's arm.
-/
import RiscvVp.Lib.Switch
import RiscvVp.Instr.Instruction

namespace RiscvVp.Instruction

open RiscvVp.Lib

set_option autoImplicit false

/-! ## The decoder -/

/-- `MATCH_AND_RETURN_INSTR2`: `result` if the word fits the entry. -/
def matchAndReturnInstr2 (instr : Instruction) (mask encoding : BitVec 32) (result : Mapping) :
    Mapping :=
  if instr &&& mask ≠ encoding then .undef else result

/-- `MATCH_AND_RETURN_INSTR`. -/
def matchAndReturnInstr (instr : Instruction) (op : Mapping) : Mapping :=
  matchAndReturnInstr2 instr op.mask op.encoding op

/-- The shifts by an immediate, whose entry depends on the architecture. -/
def matchShift (arch : Architecture) (instr : Instruction) (op : Mapping) : Mapping :=
  if arch = .rv32 then matchAndReturnInstr2 instr Mapping.shift32Mask op.encoding op
  else matchAndReturnInstr instr op

/-- The arms of `OP_AMO`: `funct3` chooses between the two widths. -/
def matchAmo (instr : Instruction) (opD opW : Mapping) : Mapping :=
  if funct3 instr = 0b011 then matchAndReturnInstr instr opD else matchAndReturnInstr instr opW

/-- `case OP_ADD`. -/
def decodeOpAdd (instr : Instruction) : Mapping :=
  let op := matchAndReturnInstr instr
  switch (funct7 instr)
    [(0b0000000, switch (funct3 instr)
        [(0b000, op .add), (0b001, op .sll), (0b010, op .slt), (0b011, op .sltu), (0b100, op .xor),
         (0b101, op .srl), (0b110, op .or), (0b111, op .and)] .undef),
     (0b0100000, switch (funct3 instr) [(0b000, op .sub), (0b101, op .sra)] .undef),
     (0b0000001, switch (funct3 instr)
        [(0b000, op .mul), (0b001, op .mulh), (0b010, op .mulhsu), (0b011, op .mulhu),
         (0b100, op .div), (0b101, op .divu), (0b110, op .rem), (0b111, op .remu)] .undef)]
    (.undef)

/-- `case OP_ADDW`. -/
def decodeOpAddw (instr : Instruction) : Mapping :=
  let op := matchAndReturnInstr instr
  switch (funct7 instr)
    [(0b0000000, switch (funct3 instr)
        [(0b000, op .addw), (0b001, op .sllw), (0b101, op .srlw)] .undef),
     (0b0100000, switch (funct3 instr) [(0b000, op .subw), (0b101, op .sraw)] .undef),
     (0b0000001, switch (funct3 instr)
        [(0b000, op .mulw), (0b100, op .divw), (0b101, op .divuw), (0b110, op .remw),
         (0b111, op .remuw)] .undef)]
    (.undef)

/-- `case OP_ECALL`: the privileged instructions by `funct12`, `SFENCE.VMA` by
default, then the CSR instructions. -/
def decodeOpEcall (instr : Instruction) : Mapping :=
  let op := matchAndReturnInstr instr
  switch (funct3 instr)
    [(0b000, switch (funct12 instr)
        [(0b000000000000, op .ecall), (0b000000000001, op .ebreak), (0b000000000010, op .uret),
         (0b000100000010, op .sret), (0b001100000010, op .mret), (0b000100000101, op .wfi)]
        (op .sfenceVma)),
     (0b001, op .csrrw), (0b010, op .csrrs), (0b011, op .csrrc), (0b101, op .csrrwi),
     (0b110, op .csrrsi), (0b111, op .csrrci)]
    (.undef)

/-- `case OP_AMO`. -/
def decodeOpAmo (instr : Instruction) : Mapping :=
  let amo := matchAmo instr
  switch (funct5 instr)
    [(0b00010, amo .lrD .lrW), (0b00011, amo .scD .scW), (0b00001, amo .amoswapD .amoswapW),
     (0b00000, amo .amoaddD .amoaddW), (0b00100, amo .amoxorD .amoxorW),
     (0b01100, amo .amoandD .amoandW), (0b01000, amo .amoorD .amoorW),
     (0b10000, amo .amominD .amominW), (0b10100, amo .amomaxD .amomaxW),
     (0b11000, amo .amominuD .amominuW), (0b11100, amo .amomaxuD .amomaxuW)]
    (.undef)

/-- `case OP_FADD_S`. -/
def decodeOpFadd (instr : Instruction) : Mapping :=
  let op := matchAndReturnInstr instr
  switch (funct7 instr)
    [(0b0000000, op .faddS), (0b0000001, op .faddD), (0b0000100, op .fsubS),
     (0b0000101, op .fsubD), (0b0100001, op .fcvtDS), (0b0001000, op .fmulS),
     (0b0001001, op .fmulD), (0b0001100, op .fdivS), (0b0001101, op .fdivD),
     (0b1010000, switch (funct3 instr)
        [(0b000, op .fleS), (0b001, op .fltS), (0b010, op .feqS)] .undef),
     (0b0010001, switch (funct3 instr)
        [(0b000, op .fsgnjD), (0b001, op .fsgnjnD), (0b010, op .fsgnjxD)] .undef),
     (0b0010100, switch (funct3 instr) [(0b000, op .fminS), (0b001, op .fmaxS)] .undef),
     (0b0010101, switch (funct3 instr) [(0b000, op .fminD), (0b001, op .fmaxD)] .undef),
     (0b0100000, op .fcvtSD),
     (0b0010000, switch (funct3 instr)
        [(0b000, op .fsgnjS), (0b001, op .fsgnjnS), (0b010, op .fsgnjxS)] .undef),
     (0b1010001, switch (funct3 instr)
        [(0b000, op .fleD), (0b001, op .fltD), (0b010, op .feqD)] .undef),
     (0b1101000, switch (rs2 instr)
        [(0b00000, op .fcvtSW), (0b00001, op .fcvtSWu), (0b00010, op .fcvtSL),
         (0b00011, op .fcvtSLu)] .undef),
     (0b1101001, switch (rs2 instr)
        [(0b00000, op .fcvtDW), (0b00001, op .fcvtDWu), (0b00010, op .fcvtDL),
         (0b00011, op .fcvtDLu)] .undef),
     (0b1100001, switch (rs2 instr)
        [(0b00000, op .fcvtWD), (0b00001, op .fcvtWuD), (0b00010, op .fcvtLD),
         (0b00011, op .fcvtLuD)] .undef),
     (0b0101100, op .fsqrtS), (0b0101101, op .fsqrtD),
     (0b1100000, switch (rs2 instr)
        [(0b00000, op .fcvtWS), (0b00001, op .fcvtWuS), (0b00010, op .fcvtLS),
         (0b00011, op .fcvtLuS)] .undef),
     (0b1110000, switch (funct3 instr) [(0b000, op .fmvXW), (0b001, op .fclassS)] .undef),
     (0b1110001, switch (funct3 instr) [(0b000, op .fmvXD), (0b001, op .fclassD)] .undef),
     (0b1111000, op .fmvWX), (0b1111001, op .fmvDX)]
    (.undef)

/-- `Instruction::decode_normal`. -/
def decodeNormal (arch : Architecture) (instr : Instruction) : Mapping :=
  let op := matchAndReturnInstr instr
  let shift := matchShift arch instr
  switch (opcode instr)
    [(0b0110111, op .lui), (0b0010111, op .auipc), (0b1101111, op .jal), (0b1100111, op .jalr),
     -- OP_BEQ
     (0b1100011, switch (funct3 instr)
        [(0b000, op .beq), (0b001, op .bne), (0b100, op .blt), (0b101, op .bge), (0b110, op .bltu),
         (0b111, op .bgeu)] .undef),
     -- OP_LB
     (0b0000011, switch (funct3 instr)
        [(0b000, op .lb), (0b001, op .lh), (0b010, op .lw), (0b100, op .lbu), (0b101, op .lhu),
         (0b110, op .lwu), (0b011, op .ld)] .undef),
     -- OP_SB
     (0b0100011, switch (funct3 instr)
        [(0b000, op .sb), (0b001, op .sh), (0b010, op .sw), (0b011, op .sd)] .undef),
     -- OP_ADDI
     (0b0010011, switch (funct3 instr)
        [(0b000, op .addi), (0b010, op .slti), (0b011, op .sltiu), (0b100, op .xori),
         (0b110, op .ori), (0b111, op .andi), (0b001, shift .slli),
         (0b101, switch (funct6 instr) [(0b000000, shift .srli), (0b010000, shift .srai)] .undef)]
        .undef),
     -- OP_ADDIW
     (0b0011011, switch (funct3 instr)
        [(0b000, op .addiw), (0b001, op .slliw),
         (0b101, switch (funct7 instr) [(0b0000000, op .srliw), (0b0100000, op .sraiw)] .undef)]
        .undef),
     (0b0110011, decodeOpAdd instr), (0b0111011, decodeOpAddw instr),
     -- OP_FENCE
     (0b0001111, switch (funct3 instr) [(0b000, op .fence), (0b001, op .fenceI)] .undef),
     (0b1110011, decodeOpEcall instr), (0b0101111, decodeOpAmo instr),
     -- OP_FMADD_S
     (0b1000011, switch (funct2 instr) [(0b00, op .fmaddS), (0b01, op .fmaddD)] .undef),
     (0b1010011, decodeOpFadd instr),
     -- OP_FLW, OP_FSW
     (0b0000111, switch (funct3 instr) [(0b010, op .flw), (0b011, op .fld)] .undef),
     (0b0100111, switch (funct3 instr) [(0b010, op .fsw), (0b011, op .fsd)] .undef),
     -- OP_FMSUB_S, OP_FNMSUB_S, OP_FNMADD_S
     (0b1000111, switch (funct2 instr) [(0b00, op .fmsubS), (0b01, op .fmsubD)] .undef),
     (0b1001011, switch (funct2 instr) [(0b00, op .fnmsubS), (0b01, op .fnmsubD)] .undef),
     (0b1001111, switch (funct2 instr) [(0b00, op .fnmaddS), (0b01, op .fnmaddD)] .undef)]
    (.undef)

/-! ## An answer is the table's -/

/-- The decoder may answer `op`: it is `undef`, or the table has it. -/
def Admissible (arch : Architecture) (instr : Instruction) (op : Mapping) : Prop :=
  op = .undef ∨ op.Matches arch instr

section Admissible

variable {arch : Architecture} {instr : Instruction} {op : Mapping}

theorem admissible_undef : Admissible arch instr .undef := .inl rfl

theorem tableMask_eq_mask (unshifted : op ≠ .slli ∧ op ≠ .srli ∧ op ≠ .srai) :
    op.tableMask arch = op.mask := by
  obtain ⟨notSlli, notSrli, notSrai⟩ := unshifted
  unfold Mapping.tableMask
  split <;> first | contradiction | rfl

theorem admissible_matchAndReturnInstr2 {mask : BitVec 32} (entry : op.tableMask arch = mask) :
    Admissible arch instr (matchAndReturnInstr2 instr mask op.encoding op) := by
  unfold matchAndReturnInstr2
  split
  case isTrue => exact admissible_undef
  case isFalse fits =>
    by_cases named : op = .undef
    · exact .inl named
    · exact .inr ⟨named, by rw [entry]; exact not_not.mp fits⟩

theorem admissible_matchAndReturnInstr (unshifted : op ≠ .slli ∧ op ≠ .srli ∧ op ≠ .srai) :
    Admissible arch instr (matchAndReturnInstr instr op) :=
  admissible_matchAndReturnInstr2 (tableMask_eq_mask unshifted)

theorem admissible_matchShift (shift : op = .slli ∨ op = .srli ∨ op = .srai) :
    Admissible arch instr (matchShift arch instr op) := by
  unfold matchShift matchAndReturnInstr
  split
  case isTrue narrow =>
    subst narrow
    exact admissible_matchAndReturnInstr2 (by obtain rfl | rfl | rfl := shift <;> rfl)
  case isFalse wide =>
    refine admissible_matchAndReturnInstr2 ?_
    cases arch <;> first | contradiction | rfl

theorem admissible_matchAmo {opD opW : Mapping} (double : opD ≠ .slli ∧ opD ≠ .srli ∧ opD ≠ .srai)
    (word : opW ≠ .slli ∧ opW ≠ .srli ∧ opW ≠ .srai) :
    Admissible arch instr (matchAmo instr opD opW) := by
  unfold matchAmo
  split
  · exact admissible_matchAndReturnInstr double
  · exact admissible_matchAndReturnInstr word

/-- Every path through the switches ends in `undef` or in a comparison with the
table entry of its answer. -/
theorem decodeNormal_admissible (arch : Architecture) (instr : Instruction) :
    Admissible arch instr (decodeNormal arch instr) := by
  unfold decodeNormal decodeOpAdd decodeOpAddw decodeOpEcall decodeOpAmo decodeOpFadd
  repeat' with_reducible first
    | exact admissible_undef
    | refine switch_nil_of ?_
    | refine switch_cons_of (fun _ => ?_) ?_
    | refine admissible_matchAndReturnInstr (by decide)
    | refine admissible_matchShift (by decide)
    | refine admissible_matchAmo (by decide) (by decide)

end Admissible

/-! ## A word with an entry reaches its arm

`fits` is the comparison of `MATCH_AND_RETURN_INSTR`.  A field whose bits the mask
covers can be read off the encoding. -/

section Covered

variable {instr mask encoding : BitVec 32} (fits : instr &&& mask = encoding)
include fits

theorem and_of_fits {field : BitVec 32} (covered : mask &&& field = field) :
    instr &&& field = encoding &&& field := by
  rw [← fits, BitVec.and_assoc, covered]

theorem opcode_of_fits (covered : mask &&& 0x7f = 0x7f) : opcode instr = encoding &&& 0x7f :=
  and_of_fits fits covered

theorem funct2_of_fits (covered : mask &&& 0x6000000 = 0x6000000) :
    funct2 instr = (encoding &&& 0x6000000).sshiftRight 25 :=
  congrArg (BitVec.sshiftRight · 25) (and_of_fits fits covered)

theorem funct3_of_fits (covered : mask &&& 0x7000 = 0x7000) :
    funct3 instr = (encoding &&& 0x7000).sshiftRight 12 :=
  congrArg (BitVec.sshiftRight · 12) (and_of_fits fits covered)

theorem funct5_of_fits (covered : mask &&& 0xf8000000 = 0xf8000000) :
    funct5 instr = (encoding &&& 0xf8000000) >>> 27 :=
  congrArg (fun field : BitVec 32 => field >>> 27) (and_of_fits fits covered)

theorem funct6_of_fits (covered : mask &&& 0xfc000000 = 0xfc000000) :
    funct6 instr = (encoding &&& 0xfc000000) >>> 26 :=
  congrArg (fun field : BitVec 32 => field >>> 26) (and_of_fits fits covered)

theorem funct7_of_fits (covered : mask &&& 0xfe000000 = 0xfe000000) :
    funct7 instr = (encoding &&& 0xfe000000) >>> 25 :=
  congrArg (fun field : BitVec 32 => field >>> 25) (and_of_fits fits covered)

theorem funct12_of_fits (covered : mask &&& 0xfff00000 = 0xfff00000) :
    funct12 instr = (encoding &&& 0xfff00000) >>> 20 :=
  congrArg (fun field : BitVec 32 => field >>> 20) (and_of_fits fits covered)

theorem rs2_of_fits (covered : mask &&& 0x1f00000 = 0x1f00000) :
    rs2 instr = (encoding &&& 0x1f00000).sshiftRight 20 :=
  congrArg (BitVec.sshiftRight · 20) (and_of_fits fits covered)

end Covered


theorem matchAndReturnInstr_of_fits {instr : Instruction} {op : Mapping}
    (fits : instr &&& op.mask = op.encoding) : matchAndReturnInstr instr op = op :=
  if_neg (not_not.mpr fits)

theorem funct12_shift (instr : Instruction) : funct12 instr >>> 5 = funct7 instr := by
  have upper : bitMask 31 20 >>> 25 = bitMask 31 25 >>> 25 := by decide
  unfold funct12 funct7 bitRange
  rw [← BitVec.shiftRight_add, BitVec.ushiftRight_and_distrib, upper,
    ← BitVec.ushiftRight_and_distrib]

/-- The upper seven bits of `funct12` tell `SFENCE.VMA`, whose register fields are
free, from the labels of the arms before it. -/
theorem funct12_ne_of_funct7 {instr : Instruction} {label : BitVec 32}
    (other : label >>> 5 ≠ funct7 instr) : funct12 instr ≠ label := by
  rintro rfl
  exact other (funct12_shift instr)

theorem opcode_covered {op : Mapping} (named : op ≠ .undef) : op.mask &&& 0x7f = 0x7f := by
  cases op <;> first | contradiction | rfl

/-- Every opcode but the three shifts: the fields its mask covers lead the switches
to its arm. -/
theorem decodeNormal_of_fits (arch : Architecture) {op : Mapping} {instr : Instruction}
    (named : op ≠ .undef) (unshifted : op ≠ .slli ∧ op ≠ .srli ∧ op ≠ .srai)
    (fits : instr &&& op.mask = op.encoding) : decodeNormal arch instr = op := by
  have major := opcode_of_fits fits (opcode_covered named)
  have answer := matchAndReturnInstr_of_fits fits
  cases op
  case undef | slli | srli | srai => simp at named unshifted
  case lui | auipc | jal => simp [decodeNormal, switch, major, Mapping.encoding, answer]
  case jalr | beq | bne | blt | bge | bltu | bgeu | lb | lh | lw | lbu | lhu | sb | sh | sw | addi
      | slti | sltiu | xori | ori | andi | fence | fenceI | csrrw | csrrs | csrrc | csrrwi | csrrsi
      | csrrci | lwu | ld | sd | addiw | flw | fsw | fld | fsd =>
    have minor := funct3_of_fits fits (by decide)
    simp [decodeNormal, decodeOpEcall, switch, major, minor, Mapping.encoding, answer]
  case add | sub | sll | slt | sltu | xor | srl | sra | or | and | mul | mulh | mulhsu | mulhu | div
      | divu | rem | remu | slliw | srliw | sraiw | addw | subw | sllw | srlw | sraw | mulw | divw
      | divuw | remw | remuw =>
    have minor := funct3_of_fits fits (by decide)
    have upper := funct7_of_fits fits (by decide)
    simp [decodeNormal, decodeOpAdd, decodeOpAddw, switch, major, minor, upper, Mapping.encoding,
      answer]
  case ecall | ebreak | uret | sret | mret | wfi =>
    have minor := funct3_of_fits fits (by decide)
    have upper := funct12_of_fits fits (by decide)
    simp [decodeNormal, decodeOpEcall, switch, major, minor, upper, Mapping.encoding, answer]
  case sfenceVma =>
    have minor := funct3_of_fits fits (by decide)
    have upper := funct7_of_fits fits (by decide)
    have free := @funct12_ne_of_funct7 instr
    simp [decodeNormal, decodeOpEcall, switch, major, minor, upper, free, Mapping.encoding, answer]
  case lrW | scW | amoswapW | amoaddW | amoxorW | amoandW | amoorW | amominW | amomaxW | amominuW
      | amomaxuW | lrD | scD | amoswapD | amoaddD | amoxorD | amoandD | amoorD | amominD | amomaxD
      | amominuD | amomaxuD =>
    have minor := funct3_of_fits fits (by decide)
    have upper := funct5_of_fits fits (by decide)
    simp [decodeNormal, decodeOpAmo, matchAmo, switch, major, minor, upper, Mapping.encoding, answer]
  case fmaddS | fmsubS | fnmaddS | fnmsubS | fmaddD | fmsubD | fnmsubD | fnmaddD =>
    have minor := funct2_of_fits fits (by decide)
    simp [decodeNormal, switch, major, minor, Mapping.encoding, answer]
  case faddS | fsubS | fmulS | fdivS | fsqrtS | faddD | fsubD | fmulD | fdivD | fsqrtD | fcvtSD
      | fcvtDS | fmvWX | fmvDX =>
    have upper := funct7_of_fits fits (by decide)
    simp [decodeNormal, decodeOpFadd, switch, major, upper, Mapping.encoding, answer]
  case fsgnjS | fsgnjnS | fsgnjxS | fminS | fmaxS | feqS | fltS | fleS | fmvXW | fclassS | fsgnjD
      | fsgnjnD | fsgnjxD | fminD | fmaxD | feqD | fltD | fleD | fmvXD | fclassD =>
    have minor := funct3_of_fits fits (by decide)
    have upper := funct7_of_fits fits (by decide)
    simp [decodeNormal, decodeOpFadd, switch, major, minor, upper, Mapping.encoding, answer]
  case fcvtWS | fcvtWuS | fcvtSW | fcvtSWu | fcvtLS | fcvtLuS | fcvtSL | fcvtSLu | fcvtWD | fcvtWuD
      | fcvtDW | fcvtDWu | fcvtLD | fcvtLuD | fcvtDL | fcvtDLu =>
    have middle := rs2_of_fits fits (by decide)
    have upper := funct7_of_fits fits (by decide)
    simp [decodeNormal, decodeOpFadd, switch, major, middle, upper, Mapping.encoding, answer]

theorem matchShift_of_fits {arch : Architecture} {op : Mapping} {instr : Instruction}
    (shift : op = .slli ∨ op = .srli ∨ op = .srai)
    (fits : instr &&& op.tableMask arch = op.encoding) : matchShift arch instr op = op := by
  have answer := @matchAndReturnInstr_of_fits instr op
  unfold matchShift matchAndReturnInstr2
  obtain rfl | rfl | rfl := shift <;> cases arch <;> simp_all [Mapping.tableMask]

theorem decodeNormal_shift_of_fits {arch : Architecture} {op : Mapping} {instr : Instruction}
    (shift : op = .slli ∨ op = .srli ∨ op = .srai)
    (fits : instr &&& op.tableMask arch = op.encoding) : decodeNormal arch instr = op := by
  have answer := matchShift_of_fits shift fits
  obtain rfl | rfl | rfl := shift
  all_goals
    have major := opcode_of_fits fits (by cases arch <;> decide)
    have minor := funct3_of_fits fits (by cases arch <;> decide)
    have upper := funct6_of_fits fits (by cases arch <;> decide)
    simp [decodeNormal, switch, major, minor, upper, Mapping.encoding, answer]

theorem decodeNormal_of_matches {arch : Architecture} {op : Mapping} {instr : Instruction}
    (matched : op.Matches arch instr) : decodeNormal arch instr = op := by
  obtain ⟨named, fits⟩ := matched
  by_cases shift : op = .slli ∨ op = .srli ∨ op = .srai
  · exact decodeNormal_shift_of_fits shift fits
  · have unshifted : op ≠ .slli ∧ op ≠ .srli ∧ op ≠ .srai := by simpa using shift
    rw [tableMask_eq_mask unshifted] at fits
    exact decodeNormal_of_fits arch named unshifted fits

/-! ## The decoder is the table -/

theorem decodeNormal_eq_iff {arch : Architecture} {op : Mapping} {instr : Instruction}
    (named : op ≠ .undef) : decodeNormal arch instr = op ↔ op.Matches arch instr := by
  constructor
  · intro answer
    obtain undef | matched := decodeNormal_admissible arch instr
    · exact absurd (answer.symm.trans undef) named
    · exact answer ▸ matched
  · exact decodeNormal_of_matches

theorem decodeNormal_eq_undef_iff {arch : Architecture} {instr : Instruction} :
    decodeNormal arch instr = .undef ↔ ∀ op : Mapping, ¬ op.Matches arch instr := by
  constructor
  · intro undef op matched
    exact matched.1 ((decodeNormal_of_matches matched).symm.trans undef)
  · intro none
    obtain undef | matched := decodeNormal_admissible arch instr
    · exact undef
    · exact absurd matched (none _)

end RiscvVp.Instruction
