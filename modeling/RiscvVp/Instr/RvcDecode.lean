/-
# RiscvVp.Instr.RvcDecode -- the expansion reads a halfword as the format says

A form is expanded with the operands `formOperands` lists, and the accessors read
them back from the rebuilt word (`expandCompressed_reads`); the form chosen is the one
whose operands the format gives the halfword (`quadrant0_decodes` and its siblings).
One legal halfword is misread: C.ADD with destination `x0`, a HINT, is taken for
C.EBREAK.
-/
import RiscvVp.Instr.RvcFields

namespace RiscvVp.Instruction

open RiscvVp.Lib InstructionFactory

set_option autoImplicit false

/-! ## Every rebuilt word is read back -/

/-- The operands a form is expanded with. -/
def formOperands (instr : Instruction) : Compressed → Rvc.Operands
  | .cIllegal | .cReserved | .cLq | .cLqsp | .cSq | .cSqsp | .cEbreak => .none
  | .cNop => .i 0 0 0
  | .cAdd => .r (cRd instr) (cRd instr) (cRs2 instr)
  | .cMv => .r (cRd instr) 0 (cRs2 instr)
  | .cAnd | .cOr | .cXor | .cSub | .cAddw | .cSubw =>
      .r (cRdSmall instr) (cRdSmall instr) (cRs2Small instr)
  | .cLw | .cFlw => .i (cRs2Small instr) (cRdSmall instr) (cLwUimm instr)
  | .cLd | .cFld => .i (cRs2Small instr) (cRdSmall instr) (cLdUimm instr)
  | .cSw | .cFsw => .s (cRdSmall instr) (cRs2Small instr) (cLwUimm instr)
  | .cSd | .cFsd => .s (cRdSmall instr) (cRs2Small instr) (cLdUimm instr)
  | .cAddi4spn => .i (cRs2Small instr) 2 (cAddi4spnNzuimm instr)
  | .cAddi | .cAddiw => .i (cRd instr) (cRd instr) (cImm instr)
  | .cLi => .i (cRd instr) 0 (cImm instr)
  | .cAddi16sp => .i 2 2 (cAddi16spNzimm instr)
  | .cLui => .u (cRd instr) (cLuiNzimm instr)
  | .cSlli => .shift (cRd instr) (cRd instr) (cUimm instr)
  | .cSrli | .cSrai => .shift (cRdSmall instr) (cRdSmall instr) (cUimm instr)
  | .cAndi => .i (cRdSmall instr) (cRdSmall instr) (cImm instr)
  | .cJal => .j 1 (cJalImm instr)
  | .cJ => .j 0 (cJalImm instr)
  | .cBeqz | .cBnez => .b (cRdSmall instr) 0 (cBranchImm instr)
  | .cLwsp | .cFlwsp => .i (cRd instr) 2 (cLwspUimm instr)
  | .cLdsp | .cFldsp => .i (cRd instr) 2 (cLdspUimm instr)
  | .cSwsp | .cFswsp => .s 2 (cRs2 instr) (cSwspUimm instr)
  | .cSdsp | .cFsdsp => .s 2 (cRs2 instr) (cSdspUimm instr)
  | .cJr => .i 0 (cRd instr) 0
  | .cJalr => .i 1 (cRd instr) 0

/-- The word carries the operands, unless it was not rebuilt. -/
def Reads (expected : Rvc.Operands) (result : Mapping × Instruction) : Prop :=
  result.1 = .undef ∨ expected.ReadFrom result.2

theorem reads_reservedOr {instr word : Instruction} {op : Mapping} {reserved : Bool}
    {expected : Rvc.Operands} (reads : expected.ReadFrom word) :
    Reads expected (reservedOr instr reserved (op, word)) := by
  unfold reservedOr
  split
  · exact .inl rfl
  · exact .inr reads

theorem expandCompressed_reads (arch : Architecture) (instr : Instruction) (cOp : Compressed) :
    ∃ result, expandCompressed instr cOp arch = .ok result ∧
      Reads (formOperands instr cOp) result := by
  cases cOp
  case cIllegal | cReserved | cLq | cLqsp | cSq | cSqsp => exact ⟨_, rfl, .inl rfl⟩
  case cEbreak => exact ⟨_, rfl, .inr trivial⟩
  case cLui =>
    refine ⟨_, rfl, reads_reservedOr ⟨?_, ?_⟩⟩
    all_goals
      revert instr
      exact OrHom.ext (by decide)
  case cAddi4spn | cAddiw | cAddi16sp | cLwsp | cLdsp | cJr | cSlli | cSrli | cSrai =>
    refine ⟨_, rfl, reads_reservedOr ⟨?_, ?_, ?_⟩⟩
    all_goals
      revert instr
      exact OrHom.ext (by decide)
  case cJal | cJ =>
    refine ⟨_, rfl, .inr ⟨?_, ?_⟩⟩
    all_goals
      revert instr
      exact OrHom.ext (by decide)
  all_goals
    refine ⟨_, rfl, .inr ⟨?_, ?_, ?_⟩⟩
    all_goals
      revert instr
      exact OrHom.ext (by decide)

/-! ## The form is the one the format names -/

/-- C.ADD with destination `x0`: a HINT. -/
def IsHintAdd (instr : Instruction) : Prop :=
  quadrant instr = 2 ∧ cOpcode instr = 0b100 ∧ cB12 instr ≠ 0 ∧ cRd instr = 0 ∧ cRs2 instr ≠ 0

instance (instr : Instruction) : Decidable (IsHintAdd instr) := inferInstanceAs (Decidable (_ ∧ _))

/-- What the format says of a halfword that was taken for the form `cOp`: RV32 has no
C.SUBW and C.ADDW, and the HINT is taken for C.EBREAK. -/
def Fits (arch : Architecture) (instr : Instruction) (cOp : Compressed) (op : Mapping) : Prop :=
  match Rvc.operands arch (halfword instr) with
  | none => op = .undef ∨ arch = .rv32 ∧ (op = .subw ∨ op = .addw)
  | some expected => op ≠ .undef ∧
      (expected = formOperands instr cOp ∧ (op = .ebreak → cRs2 instr = 0) ∨
        IsHintAdd instr ∧ expected = .r 0 0 (cRs2 instr))

theorem bit_cases : ∀ field : BitVec 1, field = 0 ∨ field = 1 := by decide

theorem pair_cases : ∀ field : BitVec 2, field = 0 ∨ field = 1 ∨ field = 2 ∨ field = 3 := by decide

theorem funct3_cases : ∀ field : BitVec 3, field = 0 ∨ field = 1 ∨ field = 2 ∨ field = 3 ∨
    field = 4 ∨ field = 5 ∨ field = 6 ∨ field = 7 := by decide

section Quadrants

variable {arch : Architecture} {instr : Instruction}

/-- The form and the opcode fit what the format says. -/
def Decodes (arch : Architecture) (instr : Instruction) : Prop :=
  ∃ cOp op word, decodeCompressed instr arch = .ok cOp ∧
    expandCompressed instr cOp arch = .ok (op, word) ∧ Fits arch instr cOp op

theorem decodes_legal {cOp : Compressed} {op : Mapping} {word : Instruction}
    (form : decodeCompressed instr arch = .ok cOp)
    (legal : Rvc.operands arch (halfword instr) = some (formOperands instr cOp))
    (expands : expandCompressed instr cOp arch = .ok (op, word))
    (named : op ≠ .undef ∧ op ≠ .ebreak) : Decodes arch instr := by
  refine ⟨cOp, op, word, form, expands, ?_⟩
  unfold Fits
  rw [legal]
  exact ⟨named.1, .inl ⟨rfl, fun trap => absurd trap named.2⟩⟩

theorem decodes_reserved {cOp : Compressed} {word : Instruction}
    (form : decodeCompressed instr arch = .ok cOp)
    (reserved : Rvc.operands arch (halfword instr) = none)
    (expands : expandCompressed instr cOp arch = .ok (.undef, word)) : Decodes arch instr := by
  refine ⟨cOp, .undef, word, form, expands, ?_⟩
  unfold Fits
  rw [reserved]
  exact .inl rfl

theorem decodes_wideOnly {cOp : Compressed} {op : Mapping} {word : Instruction}
    (form : decodeCompressed instr .rv32 = .ok cOp)
    (reserved : Rvc.operands .rv32 (halfword instr) = none)
    (expands : expandCompressed instr cOp .rv32 = .ok (op, word)) (wide : op = .subw ∨ op = .addw) :
    Decodes .rv32 instr := by
  refine ⟨cOp, op, word, form, expands, ?_⟩
  unfold Fits
  rw [reserved]
  exact .inr ⟨rfl, wide⟩

/-- A form that the decoder and the format reserve under the same condition. -/
theorem decodes_unlessReserved {cOp : Compressed} {op : Mapping} {word : Instruction} {reserved : Bool}
    (form : decodeCompressed instr arch = .ok cOp)
    (spec : Rvc.operands arch (halfword instr) = Rvc.unlessReserved reserved (formOperands instr cOp))
    (expands : expandCompressed instr cOp arch = .ok (reservedOr instr reserved (op, word)))
    (named : op ≠ .undef ∧ op ≠ .ebreak) : Decodes arch instr := by
  cases reserved with
  | false => exact decodes_legal form spec expands named
  | true => exact decodes_reserved form spec expands

/-- RV32 reserves the shifts whose amount does not fit. -/
theorem shift_reserved (arch : Architecture) (instr : Instruction) :
    (decide (arch = .rv32) && decide (Rvc.bits (halfword instr) 12 12 = 1#1)) =
      decide (arch = .rv32 ∧ cUimm instr > 31) := by
  rw [Bool.decide_and]
  exact congrArg _ (decide_eq_decide.mpr (cUimm_gt_iff instr).symm)

theorem cAddi4spnNzuimm_of_cFormat (zero : cFormat instr = 0) : cAddi4spnNzuimm instr = 0 := by
  have empty : halfword instr = 0 := by
    rw [cFormat_halfword] at zero
    apply BitVec.eq_of_toNat_eq
    have same := congrArg BitVec.toNat zero
    rwa [BitVec.toNat_setWidth_of_le (by decide)] at same
  rw [← rvc_uimmAddi4spn, empty]
  rfl

theorem quadrant0_decodes (low : Rvc.bits (halfword instr) 1 0 = 0) : Decodes arch instr := by
  have inQuadrant : quadrant instr = 0 := by rw [quadrant_halfword, low]; rfl
  have major := cOpcode_halfword instr
  have form := decodeCompressed.eq_1 instr arch
  have spec := Rvc.operands.eq_1 arch (halfword instr)
  simp only [inQuadrant, switch, reduceIte] at form
  simp only [Rvc.quadrant, low, switch, reduceIte, Rvc.operands0, rvc_rs1Short, rvc_rs2Short,
    rvc_uimmAddi4spn, rvc_uimmWord, rvc_uimmDouble] at spec
  obtain funct3 | funct3 | funct3 | funct3 | funct3 | funct3 | funct3 | funct3 :=
    funct3_cases (Rvc.bits (halfword instr) 15 13)
  all_goals
    rw [funct3] at major
    simp [major] at form
    simp [Rvc.funct3, funct3] at spec
  · by_cases zero : cFormat instr = 0#32
    · have reserved := cAddi4spnNzuimm_of_cFormat zero
      rw [if_pos zero] at form
      rw [reserved] at spec
      exact decodes_reserved form spec rfl
    · rw [if_neg zero] at form
      exact decodes_unlessReserved form spec rfl (by decide)
  · exact decodes_legal form spec rfl (by decide)
  · exact decodes_legal form spec rfl (by decide)
  · by_cases narrow : arch = .rv32
    · rw [if_pos narrow] at form spec
      exact decodes_legal form spec rfl (by decide)
    · rw [if_neg narrow] at form spec
      exact decodes_legal form spec rfl (by decide)
  · exact decodes_reserved form spec rfl
  · exact decodes_legal form spec rfl (by decide)
  · exact decodes_legal form spec rfl (by decide)
  · by_cases narrow : arch = .rv32
    · rw [if_pos narrow] at form spec
      exact decodes_legal form spec rfl (by decide)
    · rw [if_neg narrow] at form spec
      exact decodes_legal form spec rfl (by decide)

theorem cNop_fields (nop : cFormat instr = 1#32) : cRd instr = 0 ∧ cImm instr = 0 := by
  have one : halfword instr = 1 := by
    rw [cFormat_halfword] at nop
    apply BitVec.eq_of_toNat_eq
    have same := congrArg BitVec.toNat nop
    rwa [BitVec.toNat_setWidth_of_le (by decide)] at same
  rw [← rvc_rd, ← rvc_imm6, one]
  exact ⟨rfl, rfl⟩

/-- C.SUB to C.AND, then C.SUBW and C.ADDW, which are no instructions of RV32. -/
theorem register_decodes
    (form : decodeCompressed instr arch =
      if cB12 instr = 0#32 then
        if cF2Low instr = 0#32 then .ok .cSub else if cF2Low instr = 1#32 then .ok .cXor
        else if cF2Low instr = 2#32 then .ok .cOr
        else if cF2Low instr = 3#32 then .ok .cAnd else .ok .cIllegal
      else
        if cF2Low instr = 0#32 then .ok .cSubw else if cF2Low instr = 1#32 then .ok .cAddw
        else .ok .cReserved)
    (spec : Rvc.operands arch (halfword instr) =
      Rvc.unlessReserved
        (decide (Rvc.bits (halfword instr) 12 12 = 1#1) &&
          (decide (arch = .rv32) || (decide (Rvc.bits (halfword instr) 6 5 = 2#2) ||
            decide (Rvc.bits (halfword instr) 6 5 = 3#2))))
        (.r (cRdSmall instr) (cRdSmall instr) (cRs2Small instr))) : Decodes arch instr := by
  have high := cB12_halfword instr
  have lower := cF2Low_halfword instr
  obtain bit | bit := bit_cases (Rvc.bits (halfword instr) 12 12)
  all_goals
    rw [bit] at high spec
    obtain two | two | two | two := pair_cases (Rvc.bits (halfword instr) 6 5)
  all_goals
    rw [two] at lower spec
    simp [high, lower] at form
  · exact decodes_legal form spec rfl (by decide)
  · exact decodes_legal form spec rfl (by decide)
  · exact decodes_legal form spec rfl (by decide)
  · exact decodes_legal form spec rfl (by decide)
  · by_cases narrow : arch = .rv32
    · subst narrow
      exact decodes_wideOnly form spec rfl (by decide)
    · rw [decide_eq_false narrow] at spec
      exact decodes_legal form spec rfl (by decide)
  · by_cases narrow : arch = .rv32
    · subst narrow
      exact decodes_wideOnly form spec rfl (by decide)
    · rw [decide_eq_false narrow] at spec
      exact decodes_legal form spec rfl (by decide)
  · rw [show (decide (1 = 1#1) && (decide (arch = .rv32) || (decide (2 = 2#2) ||
      decide (2 = 3#2)))) = true by simp] at spec
    exact decodes_reserved form spec rfl
  · rw [show (decide (1 = 1#1) && (decide (arch = .rv32) || (decide (3 = 2#2) ||
      decide (3 = 3#2)))) = true by simp] at spec
    exact decodes_reserved form spec rfl

theorem quadrant1_decodes (low : Rvc.bits (halfword instr) 1 0 = 1) : Decodes arch instr := by
  have inQuadrant : quadrant instr = 1 := by rw [quadrant_halfword, low]; rfl
  have major := cOpcode_halfword instr
  have form := decodeCompressed.eq_1 instr arch
  have spec := Rvc.operands.eq_1 arch (halfword instr)
  simp [inQuadrant, switch] at form
  simp [Rvc.quadrant, low, switch, Rvc.operands1, rvc_rd, rvc_rs1Short, rvc_rs2Short,
    rvc_imm6, rvc_immJump, rvc_immAddi16sp, rvc_immLui, rvc_immBranch, rvc_shamt] at spec
  obtain funct3 | funct3 | funct3 | funct3 | funct3 | funct3 | funct3 | funct3 :=
    funct3_cases (Rvc.bits (halfword instr) 15 13)
  all_goals
    rw [funct3] at major
    simp [major] at form
    simp [Rvc.funct3, funct3] at spec
  · by_cases nop : cFormat instr = 1#32
    · obtain ⟨noDestination, noImmediate⟩ := cNop_fields nop
      rw [if_pos nop] at form
      rw [noDestination, noImmediate] at spec
      exact decodes_legal form spec rfl (by decide)
    · rw [if_neg nop] at form
      exact decodes_legal form spec rfl (by decide)
  · by_cases narrow : arch = .rv32
    · rw [if_pos narrow] at form spec
      exact decodes_legal form spec rfl (by decide)
    · rw [if_neg narrow] at form spec
      exact decodes_unlessReserved form spec rfl (by decide)
  · exact decodes_legal form spec rfl (by decide)
  · by_cases stack : cRd instr = 2#32
    · rw [if_pos stack] at form spec
      exact decodes_unlessReserved form spec rfl (by decide)
    · rw [if_neg stack] at form spec
      exact decodes_unlessReserved form spec rfl (by decide)
  · have upper := cF2High_halfword instr
    obtain two | two | two | two := pair_cases (Rvc.bits (halfword instr) 11 10)
    all_goals
      rw [two] at upper
      simp [upper] at form
      simp [two] at spec
    · rw [shift_reserved] at spec
      exact decodes_unlessReserved form spec rfl (by decide)
    · rw [shift_reserved] at spec
      exact decodes_unlessReserved form spec rfl (by decide)
    · exact decodes_legal form spec rfl (by decide)
    · exact register_decodes form spec
  · exact decodes_legal form spec rfl (by decide)
  · exact decodes_legal form spec rfl (by decide)
  · exact decodes_legal form spec rfl (by decide)

theorem quadrant2_decodes (low : Rvc.bits (halfword instr) 1 0 = 2) : Decodes arch instr := by
  have inQuadrant : quadrant instr = 2 := by rw [quadrant_halfword, low]; rfl
  have major := cOpcode_halfword instr
  have form := decodeCompressed.eq_1 instr arch
  have spec := Rvc.operands.eq_1 arch (halfword instr)
  simp [inQuadrant, switch] at form
  simp [Rvc.quadrant, low, switch, Rvc.operands2, rvc_rd, rvc_rs2,
    rvc_uimmWordLoadSp, rvc_uimmDoubleLoadSp, rvc_uimmWordStoreSp, rvc_uimmDoubleStoreSp, rvc_shamt] at spec
  obtain funct3 | funct3 | funct3 | funct3 | funct3 | funct3 | funct3 | funct3 :=
    funct3_cases (Rvc.bits (halfword instr) 15 13)
  all_goals
    rw [funct3] at major
    simp [major] at form
    simp [Rvc.funct3, funct3] at spec
  · rw [shift_reserved] at spec
    exact decodes_unlessReserved form spec rfl (by decide)
  · exact decodes_legal form spec rfl (by decide)
  · exact decodes_unlessReserved form spec rfl (by decide)
  · by_cases narrow : arch = .rv32
    · rw [if_pos narrow] at form spec
      exact decodes_legal form spec rfl (by decide)
    · rw [if_neg narrow] at form spec
      exact decodes_unlessReserved form spec rfl (by decide)
  · have high := cB12_halfword instr
    obtain bit | bit := bit_cases (Rvc.bits (halfword instr) 12 12)
    all_goals
      rw [bit] at high
      simp [high] at form
      simp [bit] at spec
    · by_cases jump : cRs2 instr = 0#32
      · rw [if_pos jump] at form spec
        exact decodes_unlessReserved form spec rfl (by decide)
      · rw [if_neg jump] at form spec
        exact decodes_legal form spec rfl (by decide)
    · by_cases trap : cRd instr = 0#32
      · rw [if_pos trap] at form
        by_cases hint : cRs2 instr = 0#32
        · rw [if_pos hint, if_pos trap] at spec
          refine ⟨.cEbreak, .ebreak, _, form, rfl, ?_⟩
          unfold Fits
          rw [spec]
          exact ⟨by decide, .inl ⟨rfl, fun _ => hint⟩⟩
        · rw [if_neg hint, trap] at spec
          refine ⟨.cEbreak, .ebreak, _, form, rfl, ?_⟩
          unfold Fits
          rw [spec]
          exact ⟨by decide, .inr ⟨⟨inQuadrant, major, by rw [high]; decide, trap, hint⟩, rfl⟩⟩
      · rw [if_neg trap] at form spec
        by_cases jump : cRs2 instr = 0#32
        · rw [if_pos jump] at form spec
          exact decodes_legal form spec rfl (by decide)
        · rw [if_neg jump] at form spec
          exact decodes_legal form spec rfl (by decide)
  · exact decodes_legal form spec rfl (by decide)
  · exact decodes_legal form spec rfl (by decide)
  · by_cases narrow : arch = .rv32
    · rw [if_pos narrow] at form spec
      exact decodes_legal form spec rfl (by decide)
    · rw [if_neg narrow] at form spec
      exact decodes_legal form spec rfl (by decide)

end Quadrants

/-! ## The upper half of the fetched word plays no part -/

/-- The same opcode and, unless it is `UNDEF`, the same word. -/
def SameExpansion (result other : Mapping × Instruction) : Prop :=
  other.1 = result.1 ∧ (result.1 ≠ .undef → other.2 = result.2)

theorem sameExpansion_reservedOr {instr other word : Instruction} {reserved : Bool} {op : Mapping} :
    SameExpansion (reservedOr instr reserved (op, word)) (reservedOr other reserved (op, word)) := by
  cases reserved with
  | false => exact ⟨rfl, fun _ => rfl⟩
  | true => exact ⟨rfl, fun named => absurd rfl named⟩

section Halfword

variable {instr other : Instruction} (same : halfword other = halfword instr)
include same

theorem decodeCompressed_of_halfword (arch : Architecture) :
    decodeCompressed other arch = decodeCompressed instr arch := by
  have format : cFormat other = cFormat instr := by rw [cFormat_halfword, cFormat_halfword, same]
  have inQuadrant : quadrant other = quadrant instr := by rw [quadrant_halfword, quadrant_halfword, same]
  have major : cOpcode other = cOpcode instr := by rw [cOpcode_halfword, cOpcode_halfword, same]
  have high : cB12 other = cB12 instr := by rw [cB12_halfword, cB12_halfword, same]
  have upper : cF2High other = cF2High instr := by rw [cF2High_halfword, cF2High_halfword, same]
  have lower : cF2Low other = cF2Low instr := by rw [cF2Low_halfword, cF2Low_halfword, same]
  have destination : cRd other = cRd instr := by rw [← rvc_rd, ← rvc_rd, same]
  have source : cRs2 other = cRs2 instr := by rw [← rvc_rs2, ← rvc_rs2, same]
  unfold decodeCompressed
  simp only [format, inQuadrant, major, high, upper, lower, destination, source]

theorem expandCompressed_of_halfword (arch : Architecture) (cOp : Compressed) :
    ∃ result otherResult, expandCompressed instr cOp arch = .ok result ∧
      expandCompressed other cOp arch = .ok otherResult ∧ SameExpansion result otherResult := by
  have destination : cRd other = cRd instr := by rw [← rvc_rd, ← rvc_rd, same]
  have source : cRs2 other = cRs2 instr := by rw [← rvc_rs2, ← rvc_rs2, same]
  have shortDestination : cRdSmall other = cRdSmall instr := by
      rw [← rvc_rs1Short, ← rvc_rs1Short, same]
  have shortSource : cRs2Small other = cRs2Small instr := by
      rw [← rvc_rs2Short, ← rvc_rs2Short, same]
  have immediate : cImm other = cImm instr := by rw [← rvc_imm6, ← rvc_imm6, same]
  have amount : cUimm other = cUimm instr := by rw [← rvc_shamt, ← rvc_shamt, same]
  cases cOp
  case cIllegal | cReserved | cLq | cLqsp | cSq | cSqsp =>
    exact ⟨_, _, rfl, rfl, rfl, fun named => absurd rfl named⟩
  case cNop | cEbreak => exact ⟨_, _, rfl, rfl, rfl, fun _ => rfl⟩
  case cAdd | cMv | cAnd | cOr | cXor | cSub | cAddw | cSubw | cAddi | cLi | cAndi | cJalr =>
    refine ⟨_, _, rfl, rfl, rfl, fun _ => ?_⟩
    simp only [destination, source, shortDestination, shortSource, immediate]
  case cSlli | cSrli | cSrai | cAddiw | cJr =>
    refine ⟨_, _, rfl, rfl, ?_⟩
    simp only [destination, shortDestination, immediate, amount, sameExpansion_reservedOr]
  case cLw | cFlw | cSw | cFsw =>
    have offset : cLwUimm other = cLwUimm instr := by rw [← rvc_uimmWord, ← rvc_uimmWord, same]
    refine ⟨_, _, rfl, rfl, rfl, fun _ => ?_⟩
    simp only [shortDestination, shortSource, offset]
  case cLd | cFld | cSd | cFsd =>
    have offset : cLdUimm other = cLdUimm instr := by rw [← rvc_uimmDouble, ← rvc_uimmDouble, same]
    refine ⟨_, _, rfl, rfl, rfl, fun _ => ?_⟩
    simp only [shortDestination, shortSource, offset]
  case cAddi4spn =>
    have offset : cAddi4spnNzuimm other = cAddi4spnNzuimm instr := by
      rw [← rvc_uimmAddi4spn, ← rvc_uimmAddi4spn, same]
    refine ⟨_, _, rfl, rfl, ?_⟩
    simp only [shortSource, offset, sameExpansion_reservedOr]
  case cAddi16sp =>
    have offset : cAddi16spNzimm other = cAddi16spNzimm instr := by
      rw [← rvc_immAddi16sp, ← rvc_immAddi16sp, same]
    refine ⟨_, _, rfl, rfl, ?_⟩
    simp only [offset, sameExpansion_reservedOr]
  case cLui =>
    have offset : cLuiNzimm other = cLuiNzimm instr := by rw [← rvc_immLui, ← rvc_immLui, same]
    refine ⟨_, _, rfl, rfl, ?_⟩
    simp only [destination, offset, sameExpansion_reservedOr]
  case cJal | cJ =>
    have offset : cJalImm other = cJalImm instr := by rw [← rvc_immJump, ← rvc_immJump, same]
    refine ⟨_, _, rfl, rfl, rfl, fun _ => ?_⟩
    simp only [offset]
  case cBeqz | cBnez =>
    have offset : cBranchImm other = cBranchImm instr := by
      rw [← rvc_immBranch, ← rvc_immBranch, same]
    refine ⟨_, _, rfl, rfl, rfl, fun _ => ?_⟩
    simp only [shortDestination, offset]
  case cFlwsp =>
    have offset : cLwspUimm other = cLwspUimm instr := by
      rw [← rvc_uimmWordLoadSp, ← rvc_uimmWordLoadSp, same]
    refine ⟨_, _, rfl, rfl, rfl, fun _ => ?_⟩
    simp only [destination, offset]
  case cFldsp =>
    have offset : cLdspUimm other = cLdspUimm instr := by
      rw [← rvc_uimmDoubleLoadSp, ← rvc_uimmDoubleLoadSp, same]
    refine ⟨_, _, rfl, rfl, rfl, fun _ => ?_⟩
    simp only [destination, offset]
  case cLwsp =>
    have offset : cLwspUimm other = cLwspUimm instr := by
      rw [← rvc_uimmWordLoadSp, ← rvc_uimmWordLoadSp, same]
    refine ⟨_, _, rfl, rfl, ?_⟩
    simp only [destination, offset, sameExpansion_reservedOr]
  case cLdsp =>
    have offset : cLdspUimm other = cLdspUimm instr := by
      rw [← rvc_uimmDoubleLoadSp, ← rvc_uimmDoubleLoadSp, same]
    refine ⟨_, _, rfl, rfl, ?_⟩
    simp only [destination, offset, sameExpansion_reservedOr]
  case cSwsp | cFswsp =>
    have offset : cSwspUimm other = cSwspUimm instr := by
      rw [← rvc_uimmWordStoreSp, ← rvc_uimmWordStoreSp, same]
    refine ⟨_, _, rfl, rfl, rfl, fun _ => ?_⟩
    simp only [source, offset]
  case cSdsp | cFsdsp =>
    have offset : cSdspUimm other = cSdspUimm instr := by
      rw [← rvc_uimmDoubleStoreSp, ← rvc_uimmDoubleStoreSp, same]
    refine ⟨_, _, rfl, rfl, rfl, fun _ => ?_⟩
    simp only [source, offset]

end Halfword

/-! ## Whole words -/

theorem compressed_decodes (arch : Architecture) {instr : Instruction}
    (compressed : quadrant instr ≠ 3) : Decodes arch instr := by
  obtain low | low | low | low := pair_cases (Rvc.bits (halfword instr) 1 0)
  · exact quadrant0_decodes low
  · exact quadrant1_decodes low
  · exact quadrant2_decodes low
  · exact absurd (by rw [quadrant_halfword, low]; rfl) compressed

/-- The operands a HINT is given: the register fields of `EBREAK` happen to be those
of `add x0, x0, x1`. -/
theorem hint_readFrom_iff {source : BitVec 32} :
    (Rvc.Operands.r 0 0 source).ReadFrom InstructionFactory.ebreak ↔ source = 1 := by
  have fields : rd InstructionFactory.ebreak = 0 ∧ rs1 InstructionFactory.ebreak = 0 ∧
      rs2 InstructionFactory.ebreak = 1 := by decide
  constructor
  · rintro ⟨_, _, reads⟩
    exact reads.symm.trans fields.2.2
  · rintro rfl
    exact fields

theorem hint_decodeCompressed {arch : Architecture} {instr : Instruction}
    (hint : IsHintAdd instr) : decodeCompressed instr arch = .ok .cEbreak := by
  obtain ⟨inQuadrant, major, high, destination, _⟩ := hint
  have bit : ¬ cB12 instr = 0#32 := high
  simp [decodeCompressed, switch, inQuadrant, major, bit, destination]

/-- Of a legal halfword the operands are read as the format assigns them, the HINT
apart; of any other the answer is `UNDEF`, or an opcode only RV64 has. -/
theorem decodeAndExpandCompressed_answers (arch : Architecture) {instr : Instruction}
    (compressed : quadrant instr ≠ 3) :
    ∃ op word, decodeAndExpandCompressed arch instr = .ok (op, word) ∧
      (∀ expected, Rvc.operands arch (halfword instr) = some expected → op ≠ .undef ∧
        (expected.ReadFrom word ↔ ¬ (IsHintAdd instr ∧ cRs2 instr ≠ 1))) ∧
      (Rvc.operands arch (halfword instr) = none →
        op = .undef ∨ arch = .rv32 ∧ (op = .subw ∨ op = .addw)) := by
  obtain ⟨cOp, op, word, form, expands, fits⟩ := compressed_decodes arch compressed
  refine ⟨op, word, decodeAndExpandCompressed_ok form expands, ?_, ?_⟩
  · intro expected legal
    unfold Fits at fits
    rw [legal] at fits
    obtain ⟨named, right⟩ := fits
    refine ⟨named, ?_⟩
    by_cases hint : IsHintAdd instr
    · rw [hint_decodeCompressed hint] at form
      cases form
      cases expands
      obtain ⟨_, trap⟩ | ⟨_, rfl⟩ := right
      · exact absurd (trap rfl) hint.2.2.2.2
      · rw [hint_readFrom_iff, not_and_not_right]
        exact ⟨fun source _ => source, fun source => source hint⟩
    · obtain ⟨rfl, _⟩ | ⟨misread, _⟩ := right
      · obtain ⟨result, rebuilt, reads⟩ := expandCompressed_reads arch instr cOp
        rw [expands] at rebuilt
        cases rebuilt
        exact ⟨fun _ both => hint both.1, fun _ => reads.resolve_left named⟩
      · exact absurd misread hint
  · intro reserved
    unfold Fits at fits
    rwa [reserved] at fits

/-- Words with the same halfword get the same opcode and, unless it is `UNDEF`, are
replaced by the same word. -/
theorem decodeAndExpandCompressed_ok_halfword {arch : Architecture} {instr other word : Instruction}
    {op : Mapping} (same : halfword other = halfword instr)
    (result : decodeAndExpandCompressed arch instr = .ok (op, word)) :
    ∃ otherWord, decodeAndExpandCompressed arch other = .ok (op, otherWord) ∧
      (op ≠ .undef → otherWord = word) := by
  simp only [decodeAndExpandCompressed, bind, Except.bind] at result ⊢
  rw [decodeCompressed_of_halfword same]
  split at result
  case h_1 => contradiction
  case h_2 cOp form =>
    obtain ⟨answer, ⟨otherOp, otherWord⟩, expands, otherExpands, opcode, rebuilt⟩ :=
      expandCompressed_of_halfword same arch cOp
    rw [expands] at result
    cases result
    cases opcode
    exact ⟨otherWord, otherExpands, rebuilt⟩

theorem reservedOr_undef {instr word : Instruction} {reserved : Bool} {op : Mapping}
    (named : op ≠ .undef) (undef : (reservedOr instr reserved (op, word)).1 = .undef) :
    (reservedOr instr reserved (op, word)).2 = instr := by
  cases reserved with
  | false => exact absurd undef named
  | true => rfl

/-- `UNDEF` leaves the fetched word in place. -/
theorem expandCompressed_undef (arch : Architecture) (instr : Instruction) (cOp : Compressed) :
    ∃ result, expandCompressed instr cOp arch = .ok result ∧
      (result.1 = .undef → result.2 = instr) := by
  cases cOp
  case cIllegal | cReserved | cLq | cLqsp | cSq | cSqsp => exact ⟨_, rfl, fun _ => rfl⟩
  case cAddi4spn | cAddiw | cAddi16sp | cLui | cLwsp | cLdsp | cJr | cSlli | cSrli | cSrai =>
    exact ⟨_, rfl, reservedOr_undef (by decide)⟩
  all_goals exact ⟨_, rfl, nofun⟩

theorem decodeAndExpandCompressed_undef {arch : Architecture} {instr word : Instruction}
    (result : decodeAndExpandCompressed arch instr = .ok (.undef, word)) : word = instr := by
  simp only [decodeAndExpandCompressed, bind, Except.bind] at result
  split at result
  case h_1 => contradiction
  case h_2 cOp form =>
    obtain ⟨answer, expands, kept⟩ := expandCompressed_undef arch instr cOp
    rw [expands] at result
    cases result
    exact kept rfl

end RiscvVp.Instruction
