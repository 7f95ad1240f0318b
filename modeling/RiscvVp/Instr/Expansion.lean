/-
# RiscvVp.Instr.Expansion -- the expanded word decodes to the returned opcode

`expand_compressed` returns an opcode and rebuilds the word; nothing compares the
two.  They agree for every form but one: C.ADDIW returns `ADDIW` and rebuilds the
word with `InstructionFactory::ADDI`.
-/
import RiscvVp.Instr.BitMoves
import RiscvVp.Instr.DecodeNormal

namespace RiscvVp.Instruction

open RiscvVp.Lib InstructionFactory

set_option autoImplicit false

variable {arch : Architecture} {instr word : Instruction} {op : Mapping}

/-- The word carries the opcode returned with it, `UNDEF` apart. -/
def Carries (arch : Architecture) (result : Mapping × Instruction) : Prop :=
  result.1 ≠ .undef → decodeNormal arch result.2 = result.1

theorem carries_of_fits (unshifted : op ≠ .slli ∧ op ≠ .srli ∧ op ≠ .srai)
    (fits : word &&& op.mask = op.encoding) : Carries arch (op, word) := fun named =>
  decodeNormal_of_fits arch named unshifted fits

theorem carries_reservedOr {reserved : Prop} [Decidable reserved]
    (rest : ¬ reserved → Carries arch (op, word)) :
    Carries arch (reservedOr instr reserved (op, word)) := by
  unfold reservedOr
  split
  case isTrue => exact fun named => absurd rfl named
  case isFalse kept => exact rest (by simpa using kept)

/-- The factory builds a shift by an amount below 64; RV32 wants it below 32. -/
theorem carries_shift {funct3 funct7 : BitVec 32} {reg : Instruction → BitVec 32}
    (shift : op = .slli ∨ op = .srli ∨ op = .srai)
    (wide : ∀ instr, shiftType funct3 funct7 (reg instr) (reg instr) (cUimm instr) &&& op.mask =
      op.encoding)
    (narrow : ∀ instr, shiftType funct3 funct7 (reg instr) (reg instr) (cUimm instr &&& 31) &&&
      Mapping.shift32Mask = op.encoding)
    (kept : ¬ (arch = .rv32 ∧ cUimm instr > 31)) :
    Carries arch (op, shiftType funct3 funct7 (reg instr) (reg instr) (cUimm instr)) := by
  intro _
  refine decodeNormal_shift_of_fits shift ?_
  by_cases small : arch = .rv32
  · have bound : cUimm instr &&& 31 = cUimm instr := by
      have le : (cUimm instr).toNat ≤ 31 := by
        by_contra more
        exact kept ⟨small, BitVec.lt_def.mpr (by simpa using more)⟩
      apply BitVec.eq_of_toNat_eq
      rw [BitVec.toNat_and]
      exact (Nat.and_two_pow_sub_one_eq_mod _ 5).trans (Nat.mod_eq_of_lt (by omega))
    have fits := narrow instr
    rw [bound] at fits
    subst small
    obtain rfl | rfl | rfl := shift <;> exact fits
  · have mask : op.tableMask arch = op.mask := by
      unfold Mapping.tableMask
      split <;> first | contradiction | rfl
    rw [mask]
    exact wide instr

/-- Every form but C.ADDIW is rebuilt as what it is returned as. -/
theorem expandCompressed_carries (arch : Architecture) (instr : Instruction) {cOp : Compressed}
    (other : cOp ≠ .cAddiw) :
    ∃ result, expandCompressed instr cOp arch = .ok result ∧ Carries arch result := by
  cases cOp
  case cAddiw => contradiction
  case cIllegal | cReserved | cLq | cLqsp | cSq | cSqsp =>
    exact ⟨(.undef, instr), rfl, fun named => absurd rfl named⟩
  case cSlli | cSrli | cSrai =>
    refine ⟨_, rfl, carries_reservedOr fun kept => carries_shift (by decide) ?_ ?_ kept⟩
    · exact OrHom.ext (by decide)
    · exact OrHom.ext (by decide)
  case cAddi4spn | cAddi16sp | cLui | cLwsp | cLdsp | cJr =>
    refine ⟨_, rfl, carries_reservedOr (Function.const _ (carries_of_fits (by decide) ?_))⟩
    revert instr
    exact OrHom.ext (by decide)
  all_goals
    refine ⟨_, rfl, carries_of_fits (by decide) ?_⟩
    revert instr
    exact OrHom.ext (by decide)

/-- The halfword is C.ADDIW with a destination: quadrant one, major opcode one, on an
architecture where that is not C.JAL. -/
def IsCAddiw (arch : Architecture) (instr : Instruction) : Prop :=
  arch ≠ .rv32 ∧ quadrant instr = 1 ∧ cOpcode instr = 0b001 ∧ cRd instr ≠ 0

instance : Decidable (IsCAddiw arch instr) := inferInstanceAs (Decidable (_ ∧ _))

theorem decodeCompressed_eq_cAddiw_iff : decodeCompressed instr arch = .ok .cAddiw ↔
    arch ≠ .rv32 ∧ quadrant instr = 1 ∧ cOpcode instr = 0b001 := by
  constructor
  · unfold decodeCompressed
    repeat' with_reducible first
      | refine switch_nil_of (P := (· = _ → _)) ?_
      | refine switch_cons_of (P := (· = _ → _)) (fun same => ?_) ?_
    all_goals intro named
    all_goals grind [switch]
  · rintro ⟨wide, quadrantOne, opcodeOne⟩
    simp [decodeCompressed, switch, quadrantOne, opcodeOne, wide]

/-- What C.ADDIW is rebuilt as. -/
theorem expandCompressed_cAddiw (destination : cRd instr ≠ 0) :
    expandCompressed instr .cAddiw arch =
      .ok (.addiw, addi (cRd instr) (cRd instr) (cImm instr)) := by
  have kept : ¬ cRd instr = 0#32 := destination
  simp [expandCompressed, switch, reservedOr, kept]

theorem decodeNormal_rebuilt_cAddiw (arch : Architecture) (instr : Instruction) :
    decodeNormal arch (addi (cRd instr) (cRd instr) (cImm instr)) = .addi := by
  refine decodeNormal_of_fits arch (by decide) (by decide) ?_
  revert instr
  exact OrHom.ext (by decide)

theorem carries_or_cAddiw (result : decodeAndExpandCompressed arch instr = .ok (op, word)) :
    Carries arch (op, word) ∨ IsCAddiw arch instr ∧ op = .addiw := by
  simp only [decodeAndExpandCompressed, bind, Except.bind] at result
  split at result
  case h_1 => contradiction
  case h_2 cOp form =>
    by_cases addiw : cOp = .cAddiw
    · subst addiw
      obtain ⟨wide, quadrantOne, opcodeOne⟩ := decodeCompressed_eq_cAddiw_iff.mp form
      by_cases reserved : cRd instr = 0
      · left
        have undef : op = .undef := by
          simp [expandCompressed, switch, reservedOr, reserved] at result
          exact result.1.symm
        exact fun named => absurd undef named
      · right
        rw [expandCompressed_cAddiw reserved] at result
        cases result
        exact ⟨⟨wide, quadrantOne, opcodeOne, reserved⟩, rfl⟩
    · left
      obtain ⟨answer, expands, carries⟩ := expandCompressed_carries arch instr addiw
      rw [expands] at result
      cases result
      exact carries

/-- The opcode returned for a compressed word and the word it is replaced by agree
exactly when the form is not C.ADDIW. -/
theorem decodeAndExpandCompressed_consistent_iff (arch : Architecture) (instr : Instruction) :
    (∀ op word, decodeAndExpandCompressed arch instr = .ok (op, word) → op ≠ .undef →
      decodeNormal arch word = op) ↔ ¬ IsCAddiw arch instr := by
  constructor
  · rintro consistent ⟨wide, quadrantOne, opcodeOne, destination⟩
    have form := decodeCompressed_eq_cAddiw_iff.mpr ⟨wide, quadrantOne, opcodeOne⟩
    have result := decodeAndExpandCompressed_ok form (expandCompressed_cAddiw destination)
    have answer := consistent _ _ result (by decide)
    rw [decodeNormal_rebuilt_cAddiw] at answer
    exact absurd answer (by decide)
  · intro other op word result named
    rcases carries_or_cAddiw result with carries | ⟨addiw, -⟩
    · exact carries named
    · exact absurd addiw other

/-- C.ADDIW x8, 0 on RV64: returned as `ADDIW`, rebuilt as `ADDI`. -/
theorem cAddiw_inconsistent : ¬ ∀ (arch : Architecture) (instr : Instruction),
    quadrant instr ≠ 3 → ∀ op word, decodeAndExpandCompressed arch instr = .ok (op, word) →
      op ≠ .undef → decodeNormal arch word = op := by
  intro consistent
  have answer := consistent .rv64 0x2401 (by decide) .addiw
    (addi 8 8 0) rfl (by decide)
  exact absurd answer (by decide)

end RiscvVp.Instruction
