/-
# RiscvVp.Iss.Decoding -- what the two cores make of a fetched word

The decoders accept the RV64-only instructions for both cores; the RV32 core answers
their opcodes with an illegal-instruction trap (`exec_rv64Only`).  With that the
decoders are what they are meant to be: `decode_normal` is the encoding table, and
`decode_and_expand_compressed` is the RVC format but for C.ADD with destination `x0`
and the upper half of a word it does not understand.
-/
import RiscvVp.Instr.RvcDecode
import RiscvVp.Iss.Exec

namespace RiscvVp

set_option autoImplicit false

open Lib

/-- The opcodes `Opcode::Mapping` lists as additions of RV64. -/
def Mapping.isRv64Only : Mapping → Bool
  | .lwu | .ld | .sd | .addiw | .slliw | .srliw | .sraiw | .addw | .subw | .sllw | .srlw | .sraw
  | .mulw | .divw | .divuw | .remw | .remuw
  | .lrD | .scD | .amoswapD | .amoaddD | .amoxorD | .amoandD | .amoorD | .amominD | .amomaxD
  | .amominuD | .amomaxuD
  | .fcvtLS | .fcvtLuS | .fcvtSL | .fcvtSLu
  | .fcvtLD | .fcvtLuD | .fmvXD | .fcvtDL | .fcvtDLu | .fmvDX => true
  | _ => false

/-- The RV32 core takes an illegal-instruction trap with the word as trap value. -/
def RejectedOnRv32 (op : Mapping) : Prop :=
  ∀ (World : Type) (plat : Platform World) (word : Instruction) (s : Iss .rv32 World),
    (Iss.exec word plat op).run s =
      (.error (.trap ⟨.illegalInstr, s.instr.setWidth 64⟩), s)

theorem exec_rv64Only {op : Mapping} (wide : op.isRv64Only = true) : RejectedOnRv32 op := by
  intro World plat word s
  cases op <;> first | rfl | contradiction

namespace Instruction

/-- `decode_normal` answers with the one entry of the table that matches the word. -/
theorem decodeNormal_is_table (isa : Isa) (word : Instruction) :
    (∀ op, op ≠ .undef → (decodeNormal isa.arch word = op ↔ op.Matches isa.arch word)) ∧
    (∀ op other : Mapping, op.Matches isa.arch word → other.Matches isa.arch word → op = other) ∧
    (decodeNormal isa.arch word = .undef ↔ ∀ op : Mapping, ¬ op.Matches isa.arch word) ∧
    (∀ op : Mapping, op.isRv64Only = true → RejectedOnRv32 op) := by
  refine ⟨fun op named => decodeNormal_eq_iff named, ?_, decodeNormal_eq_undef_iff,
    fun op wide => exec_rv64Only wide⟩
  intro op other matched otherMatched
  exact (decodeNormal_of_matches matched).symm.trans (decodeNormal_of_matches otherMatched)

/-! ## Compressed words -/

section Compressed

variable {arch : Architecture} {instr : Instruction}

/-- The encodings of C.SUBW and C.ADDW. -/
def IsWideArithmetic (instr : Instruction) : Prop :=
  quadrant instr = 1 ∧ cOpcode instr = 0b100 ∧ cF2High instr = 0b11 ∧ cB12 instr ≠ 0 ∧
    (cF2Low instr = 0b00 ∨ cF2Low instr = 0b01)

instance : Decidable (IsWideArithmetic instr) := inferInstanceAs (Decidable (_ ∧ _))

theorem decodeCompressed_wideArithmetic_iff :
    (decodeCompressed instr arch = .ok .cSubw ∨ decodeCompressed instr arch = .ok .cAddw) ↔
      IsWideArithmetic instr := by
  constructor
  · unfold decodeCompressed
    repeat' with_reducible first
      | refine switch_nil_of (P := fun r => (r = _ ∨ r = _) → _) ?_
      | refine switch_cons_of (P := fun r => (r = _ ∨ r = _) → _) (fun same => ?_) ?_
    all_goals intro named
    all_goals grind [switch, IsWideArithmetic]
  · rintro ⟨inQuadrant, major, high, bit, low | low⟩
    · exact .inl (by
        have set : ¬ cB12 instr = 0#32 := bit
        simp [decodeCompressed, switch, inQuadrant, major, high, set, low])
    · exact .inr (by
        have set : ¬ cB12 instr = 0#32 := bit
        simp [decodeCompressed, switch, inQuadrant, major, high, set, low])

/-- Only the two forms are answered with the two opcodes. -/
theorem expandCompressed_wideArithmetic_iff {cOp : Compressed} {op : Mapping} {word : Instruction}
    (expands : expandCompressed instr cOp arch = .ok (op, word)) :
    (op = .subw ∨ op = .addw) ↔ (cOp = .cSubw ∨ cOp = .cAddw) := by
  cases cOp
  case cSubw | cAddw =>
    cases expands
    exact ⟨fun _ => by decide, fun _ => by decide⟩
  case cAddi4spn | cAddiw | cAddi16sp | cLui | cLwsp | cLdsp | cJr | cSlli | cSrli | cSrai =>
    simp only [expandCompressed, switch, reservedOr] at expands
    grind
  all_goals
    cases expands
    exact ⟨fun wide => absurd wide (by decide), fun wide => absurd wide (by decide)⟩

theorem answer_wideArithmetic_iff {op : Mapping} {word : Instruction}
    (result : decodeAndExpandCompressed arch instr = .ok (op, word)) :
    (op = .subw ∨ op = .addw) ↔ IsWideArithmetic instr := by
  simp only [decodeAndExpandCompressed, bind, Except.bind] at result
  split at result
  case h_1 => contradiction
  case h_2 cOp form =>
    rw [expandCompressed_wideArithmetic_iff result,
      ← @decodeCompressed_wideArithmetic_iff arch instr, form]
    simp only [Except.ok.injEq]

/-- The opcode and the rewritten word are the same for every word with this halfword. -/
def DependsOnHalfword (arch : Architecture) (instr : Instruction) : Prop :=
  ∀ other, halfword other = halfword instr →
    decodeAndExpandCompressed arch other = decodeAndExpandCompressed arch instr

/-- The word is expanded without an error; a legal halfword gets an opcode and the
operands of the format, any other `UNDEF` or an opcode the core rejects. -/
def ExpandsToFormat (isa : Isa) (instr : Instruction) : Prop :=
  ∃ op word, decodeAndExpandCompressed isa.arch instr = .ok (op, word) ∧
    (∀ expected, Rvc.operands isa.arch (halfword instr) = some expected →
      op ≠ .undef ∧ expected.ReadFrom word) ∧
    (Rvc.operands isa.arch (halfword instr) = none →
      op = .undef ∨ isa = .rv32 ∧ op.isRv64Only = true ∧ RejectedOnRv32 op)

theorem arch_eq_rv32_iff {isa : Isa} : isa.arch = .rv32 ↔ isa = .rv32 := by
  cases isa <;> decide

/-- The answer is `UNDEF` for what is reserved on the core, the forms that RV64 adds
apart. -/
theorem answer_undef_iff {isa : Isa} {op : Mapping} {word : Instruction}
    (compressed : quadrant instr ≠ 3)
    (result : decodeAndExpandCompressed isa.arch instr = .ok (op, word)) :
    op = .undef ↔ Rvc.operands isa.arch (halfword instr) = none ∧
      ¬ (isa = .rv32 ∧ IsWideArithmetic instr) := by
  obtain ⟨_, _, answer, legal, reserved⟩ := decodeAndExpandCompressed_answers isa.arch compressed
  rw [result] at answer
  cases answer
  rw [← answer_wideArithmetic_iff result]
  constructor
  · rintro rfl
    refine ⟨?_, fun wide => absurd wide.2 (by decide)⟩
    cases known : Rvc.operands isa.arch (halfword instr) with
    | none => rfl
    | some expected => exact absurd rfl (legal expected known).1
  · rintro ⟨none, narrow⟩
    refine (reserved none).resolve_right fun wide => narrow ⟨?_, wide.2⟩
    exact arch_eq_rv32_iff.mp wide.1

/-- Two words that differ in their upper half only. -/
theorem halfword_flip (instr : Instruction) :
    halfword (instr ^^^ 0x80000000) = halfword instr ∧ instr ^^^ 0x80000000 ≠ instr := by
  constructor
  · unfold halfword
    rw [BitVec.setWidth_xor]
    simp
  · intro same
    have zero : (0x80000000 : BitVec 32) = 0 :=
      calc (0x80000000 : BitVec 32)
        _ = instr ^^^ (instr ^^^ 0x80000000) := by rw [← BitVec.xor_assoc, BitVec.xor_self, BitVec.zero_xor]
        _ = instr ^^^ instr := by rw [same]
        _ = 0 := BitVec.xor_self
    exact absurd zero (by decide)

theorem dependsOnHalfword_iff {isa : Isa} (compressed : quadrant instr ≠ 3) :
    DependsOnHalfword isa.arch instr ↔
      (Rvc.operands isa.arch (halfword instr)).isSome ∨ isa = .rv32 ∧ IsWideArithmetic instr := by
  obtain ⟨op, word, result, _⟩ := decodeAndExpandCompressed_answers isa.arch compressed
  have undef := answer_undef_iff compressed result
  have defined : op ≠ .undef ↔ (Rvc.operands isa.arch (halfword instr)).isSome ∨
      isa = .rv32 ∧ IsWideArithmetic instr := by
    rw [ne_eq, undef, not_and_not_right, Option.isSome_iff_ne_none]
    exact ⟨fun h => or_iff_not_imp_left.mpr fun none => h (not_not.mp none),
      fun h none => h.resolve_left (not_not.mpr none)⟩
  rw [← defined]
  constructor
  · rintro determined rfl
    obtain ⟨same, different⟩ := halfword_flip instr
    have flipped := (determined _ same).trans result
    exact different ((decodeAndExpandCompressed_undef flipped).symm.trans
      (decodeAndExpandCompressed_undef result))
  · intro named other same
    obtain ⟨otherWord, otherResult, rebuilt⟩ := decodeAndExpandCompressed_ok_halfword same result
    rw [otherResult, result, rebuilt named]

/-- The HINT is legal, though it is taken for C.EBREAK. -/
theorem hint_legal {isa : Isa} (hint : IsHintAdd instr) :
    ∃ expected, Rvc.operands isa.arch (halfword instr) = some expected := by
  have compressed : quadrant instr ≠ 3 := by
    rw [hint.1]
    decide
  have answer : decodeAndExpandCompressed isa.arch instr = .ok (.ebreak, _) :=
    decodeAndExpandCompressed_ok (hint_decodeCompressed hint) rfl
  cases known : Rvc.operands isa.arch (halfword instr) with
  | some expected => exact ⟨expected, rfl⟩
  | none =>
    have undef := (answer_undef_iff compressed answer).mpr ⟨known, fun wide => ?_⟩
    · exact absurd undef (by decide)
    · exact absurd (wide.2.1.symm.trans hint.1) (by decide)

theorem expandsToFormat_iff {isa : Isa} (compressed : quadrant instr ≠ 3) :
    ExpandsToFormat isa instr ↔ ¬ (IsHintAdd instr ∧ cRs2 instr ≠ 1) := by
  obtain ⟨op, word, result, legal, reserved⟩ :=
    decodeAndExpandCompressed_answers isa.arch compressed
  constructor
  · rintro ⟨_, _, answer, reads, _⟩ hint
    rw [result] at answer
    cases answer
    obtain ⟨expected, known⟩ := @hint_legal _ isa hint.1
    exact ((legal expected known).2.mp (reads expected known).2) hint
  · intro plain
    refine ⟨op, word, result, fun expected known => ?_, fun none => ?_⟩
    · obtain ⟨named, readFrom⟩ := legal expected known
      exact ⟨named, readFrom.mpr plain⟩
    · obtain undef | ⟨narrow, wide⟩ := reserved none
      · exact .inl undef
      · have only : op.isRv64Only = true := by obtain rfl | rfl := wide <;> rfl
        exact .inr ⟨arch_eq_rv32_iff.mp narrow, only, exec_rv64Only only⟩

/-- The two halves of the format: what the answer may depend on, and what it has to be. -/
theorem decodeAndExpandCompressed_meets_format_iff (isa : Isa) {instr : Instruction}
    (compressed : quadrant instr ≠ 3) :
    (DependsOnHalfword isa.arch instr ↔
      (Rvc.operands isa.arch (halfword instr)).isSome ∨ isa = .rv32 ∧ IsWideArithmetic instr) ∧
    (ExpandsToFormat isa instr ↔ ¬ (IsHintAdd instr ∧ cRs2 instr ≠ 1)) :=
  ⟨dependsOnHalfword_iff compressed, expandsToFormat_iff compressed⟩

/-- C.LI x10, 0 on RV64. -/
theorem cLi_meets_format : quadrant 0x4501 ≠ 3 ∧ DependsOnHalfword .rv64 0x4501 ∧
    ExpandsToFormat .rv64 0x4501 := by
  have compressed : quadrant 0x4501 ≠ 3 := by decide
  have format := decodeAndExpandCompressed_meets_format_iff .rv64 compressed
  exact ⟨compressed, format.1.mpr (.inl (by decide)), format.2.mpr (by decide)⟩

/-- C.ADD x0, x2, a HINT: answered with `EBREAK`, whose `rs2` field reads `x1`. -/
theorem hintAdd_misread : ¬ ∀ (isa : Isa) (instr : Instruction), quadrant instr ≠ 3 →
    DependsOnHalfword isa.arch instr ∧ ExpandsToFormat isa instr := by
  intro format
  have compressed : quadrant 0x900a ≠ 3 := by decide
  exact (expandsToFormat_iff compressed).mp (format .rv64 0x900a compressed).2 (by decide)

end Compressed

end Instruction

end RiscvVp
