/-
# RiscvVp.Iss.IllegalValue -- the trap value of an illegal instruction

Every place that raises the trap passes on the instruction register.  For a word of four bytes
that is what was fetched.  A compressed instruction has been overwritten by its expansion when
its instruction is refused; and one that the decoder does not know is still in the register
together with the two bytes behind it.
-/
import RiscvVp.Instr.Expansion
import RiscvVp.Iss.Decoding
import RiscvVp.Iss.Fetched
import RiscvVp.Iss.TrapStep

namespace RiscvVp

set_option autoImplicit false

open Lib Transition

/-! ## The word in the register -/

namespace Instruction

variable {isa : Isa} {word instr : Instruction} {op : Mapping}

/-- The bits of the instruction itself: a word, or a halfword. -/
def ownBits (word : Instruction) : BitVec 64 :=
  if word.isCompressed then (halfword word).setWidth 64 else word.setWidth 64

/-- A compressed instruction is not kept unless it is none, and then only with zeros behind
it. -/
def Survives (isa : Isa) (word : Instruction) : Prop :=
  word.isCompressed = true →
    Rvc.operands isa.arch (halfword word) = none ∧ ¬ (isa = .rv32 ∧ IsWideArithmetic word) ∧
      word.extractLsb' 16 16 = 0

theorem isCompressed_iff : word.isCompressed = true ↔ quadrant word ≠ 3 := by
  unfold isCompressed
  rw [quadrant_halfword]
  rcases pair_cases (Rvc.bits (halfword word) 1 0) with zero | one | two | three
  · simp [zero]
  · simp [one]
  · simp [two]
  · simp [three]

/-- What has an opcode takes four bytes. -/
theorem long_of_decodeNormal {arch : Architecture} (named : op ≠ .undef)
    (decodes : decodeNormal arch word = op) : quadrant word = 3 := by
  have masks : op.tableMask arch &&& 3 = 3 ∧ op.encoding &&& 3 = 3 := by
    cases op <;> first | exact absurd rfl named | (cases arch <;> decide)
  obtain ⟨-, fits⟩ := (decodeNormal_eq_iff named).mp decodes
  exact (and_of_fits fits masks.1).trans masks.2

/-- So does an expansion. -/
theorem long_of_expanded {arch : Architecture} (named : op ≠ .undef)
    (result : decodeAndExpandCompressed arch word = .ok (op, instr)) : quadrant instr = 3 := by
  rcases carries_or_cAddiw result with carries | ⟨⟨wide, one, opcode, destination⟩, -⟩
  · exact long_of_decodeNormal named (carries named)
  · have form := decodeCompressed_eq_cAddiw_iff.mpr ⟨wide, one, opcode⟩
    have rebuilt := decodeAndExpandCompressed_ok form (expandCompressed_cAddiw destination)
    cases rebuilt.symm.trans result
    exact long_of_decodeNormal (by decide) (decodeNormal_rebuilt_cAddiw arch word)

theorem quadrant_of_ownBits (own : instr.setWidth 64 = (halfword word).setWidth 64) :
    quadrant instr = quadrant word := by
  have low : halfword instr = halfword word := by
    have narrow := congrArg (BitVec.setWidth 16) own
    rwa [BitVec.setWidth_setWidth_of_le _ (by decide), BitVec.setWidth_setWidth_of_le _ (by decide),
      BitVec.setWidth_eq] at narrow
  rw [quadrant_halfword, quadrant_halfword, low]

/-- A word is its lower half when its upper half is zero. -/
theorem setWidth_eq_halfword_iff :
    word.setWidth 64 = (halfword word).setWidth 64 ↔ word.extractLsb' 16 16 = 0 := by
  have bound := word.isLt
  have zero : (0 : BitVec 16).toNat = 0 := rfl
  rw [← BitVec.toNat_inj, ← BitVec.toNat_inj, BitVec.extractLsb'_toNat, Nat.shiftRight_eq_div_pow, zero]
  simp only [halfword, BitVec.toNat_setWidth]
  omega

theorem decoded_eq_ownBits_iff (decodes : word.decoded isa = some (op, instr)) :
    instr.setWidth 64 = ownBits word ↔ Survives isa word := by
  unfold decoded at decodes
  unfold ownBits Survives
  by_cases short : word.isCompressed = true
  · rw [if_pos short] at decodes ⊢
    have compressed := isCompressed_iff.mp short
    cases result : word.decodeAndExpandCompressed isa.arch with
    | error _ =>
      rw [result] at decodes
      cases decodes
    | ok answer =>
      obtain ⟨op', instr'⟩ := answer
      rw [result] at decodes
      obtain ⟨rfl, rfl⟩ : op' = op ∧ instr' = instr := by simpa using decodes
      have undef := answer_undef_iff compressed result
      by_cases named : op' = .undef
      · have reserved := undef.mp named
        subst named
        cases decodeAndExpandCompressed_undef result
        rw [setWidth_eq_halfword_iff]
        exact ⟨fun clear _ => ⟨reserved.1, reserved.2, clear⟩, fun survives => (survives short).2.2⟩
      · constructor
        · intro own
          exact absurd ((quadrant_of_ownBits own).symm.trans (long_of_expanded named result)) compressed
        · intro survives
          obtain ⟨none, narrow, -⟩ := survives short
          exact absurd (undef.mpr ⟨none, narrow⟩) named
  · rw [if_neg short] at decodes ⊢
    cases decodes
    exact ⟨fun _ compressed => absurd compressed short, fun _ => rfl⟩

end Instruction

/-! ## What the trap passes on -/

namespace Iss

variable {isa : Isa} {World : Type}

/-- The instruction register stays, and an illegal instruction is reported with it. -/
def Reporting (s : Iss isa World) (o : Option Exc) (t : Iss isa World) : Prop :=
  (o = none → t.instr = s.instr) ∧
    ∀ value, o = some (.trap ⟨.illegalInstr, value⟩) → value = s.instr.setWidth 64

theorem reporting_of_same {s t : Iss isa World} (same : t.instr = s.instr) : Reporting s none t :=
  ⟨fun _ => same, nofun⟩

instance : Closed (@Reporting isa World) where
  refl _ := reporting_of_same rfl
  trans first second := by
    have same := first.1 rfl
    exact ⟨fun returns => (second.1 returns).trans same, fun value ends => same ▸ second.2 value ends⟩

instance : Indifferent (@Reporting isa World) where
  trap _ _ _ own := ⟨nofun, fun _ same => by
    cases same
    exact own rfl⟩
  rethrow {_ _ e} _ _ _ illegal step := ⟨nofun, fun _ same => by
    cases same
    obtain ⟨reason, value⟩ := e
    cases illegal rfl
    exact step.2 _ rfl⟩
  abort _ _ _ := ⟨nofun, nofun⟩
  scratch _ _ _ _ := reporting_of_same rfl
  move _ _ := reporting_of_same rfl
  cycle := .bind inferInstance fun _ => .update fun _ => reporting_of_same rfl
  world _ _ := reporting_of_same rfl
  stuck _ _ _ ends := ⟨nofun, fun _ same => by
    cases same
    rcases ends with blocked | outside
    · cases blocked
    · cases outside⟩
  counter _ _ _ _ := reporting_of_same rfl
  reservation _ _ _ := reporting_of_same rfl
  mode _ _ _ := reporting_of_same rfl
  csr _ _ _ _ := reporting_of_same rfl
  status _ _ _ := reporting_of_same rfl
  refused _ _ _ legal := ⟨nofun, fun _ same => by
    cases same
    exact absurd rfl legal⟩

instance : Writes (@Reporting isa World) where
  reg _ _ _ := reporting_of_same rfl
  exit _ := reporting_of_same rfl

instance : FpWrites (@Reporting isa World) where
  reg _ _ _ := reporting_of_same rfl
  flags _ _ := reporting_of_same rfl
  dirty := ⟨fun _ => reporting_of_same rfl⟩
  accrue _ := .update fun _ => reporting_of_same rfl

section Step

variable {plat : Platform World} {s u : Iss isa World} {word : Instruction}

theorem reporting_exec (instr : Instruction) (op : Mapping) : SatAt Reporting (exec instr plat op) s := by
  refine satAt_exec plat Reporting (fun csr => ?_) fun float => .of_sat (sat_exec_float instr plat float)
  refine satAt_exec_csr Reporting (fun _ _ _ => .of_sat ?_) csr
  exact sat_setCsrValue (fun _ _ => reporting_of_same rfl) _ _

/-- The value is what the decoder has left of the fetched word. -/
theorem raised_value {e : SimulationTrap} (illegal : e.reason = .illegalInstr)
    (fetches : fetched plat s = some word)
    (raised : (execStep plat).run s = (.error (.trap e), u)) :
    ∃ op instr, word.decoded isa = some (op, instr) ∧ e.mtval = instr.setWidth 64 := by
  obtain ⟨reason, value⟩ := e
  cases illegal
  unfold fetched at fetches
  split at fetches
  case h_2 => cases fetches
  case h_1 word' v loaded =>
    cases fetches
    have fetching : (fetch plat).run s = (.ok (), { v with instr := word }) :=
      fetch_eq_ok.mpr ⟨word, v, loaded, rfl⟩
    unfold execStep at raised
    rw [Exec.run_read_bind] at raised
    rcases Exec.run_bind_eq_error.mp raised with asserting | ⟨_, s', asserted, body⟩
    · exact absurd asserting (by unfold assert; split <;> nofun)
    obtain ⟨-, rfl⟩ := assert_ok asserted
    rw [Exec.run_bind_ok fetching] at body
    rcases Exec.run_bind_eq_error.mp body with decoding | ⟨_, w, decoding, executed⟩
    · rcases decode_error decoding with ⟨-, ended, -⟩ | ⟨op, instr, decodes, -, -, -, ended, -⟩
      · cases ended
      · cases ended
        exact ⟨op, instr, decodes, rfl⟩
    · obtain ⟨op, instr, decodes, -, rfl⟩ := decode_eq_ok.mp decoding
      rw [Exec.run_read_bind, Exec.run_read_bind] at executed
      exact ⟨op, instr, decodes, ((reporting_exec instr op).error executed).2 value rfl⟩

/-- The handler finds the value of the trap in the register of its level. -/
theorem taken_value {e : SimulationTrap} {t : Iss isa World}
    (ran : (takeTrap plat (.trap e)).run s = (.ok (), t)) :
    t.csrs.reg (trapRegs t.prv).tval = e.mtval.setWidth isa.xlen := by
  obtain ⟨level, v, prepares, switches⟩ := Exec.run_bind_eq_ok.mp ran
  obtain ⟨rfl, rfl⟩ := prepareTrap_eq_ok prepares
  have known := trapLevel_known e.reason s
  rw [run_switchToTrapHandler _ plat known] at switches
  cases switches
  exact (entered_prepared plat known e s).2.2.1

theorem recorded_value {e : SimulationTrap} {t : Iss isa World} (going : ¬ Stopped s)
    (raised : (execStep plat).run (beforeExec plat s) = (.error (.trap e), u))
    (ran : (runStep plat).run s = (.ok (), t)) :
    t.csrs.reg (trapRegs t.prv).tval = e.mtval.setWidth isa.xlen := by
  rcases runStep_ok ran with ⟨stopped, -⟩ | ⟨-, v, status, tried, counted⟩
  · exact absurd stopped going
  have thrown : (execAndInterrupt plat).run (beforeExec plat s) = (.error (.trap e), u) :=
    Exec.run_bind_error raised
  rw [Exec.run_tryCatch_error thrown] at tried
  have value := taken_value tried
  have counting := (counting_performance plat).ok counted
  rw [counting.prv, counting.reg]
  exact value

/-- An illegal-instruction trap out of `word` has its bits for its value, and the level that
handles it finds them recorded. -/
def ReportsOwnBits (plat : Platform World) (s : Iss isa World) (word : Instruction) : Prop :=
  ∀ value u, (execStep plat).run (beforeExec plat s) = (.error (.trap ⟨.illegalInstr, value⟩), u) →
    value = word.ownBits ∧
      ∀ t, ¬ Stopped s → (runStep plat).run s = (.ok (), t) →
        t.csrs.reg (trapRegs t.prv).tval = word.ownBits.setWidth isa.xlen

theorem reportsOwnBits_iff (fetches : fetched plat (beforeExec plat s) = some word)
    (raises : ∃ value u,
      (execStep plat).run (beforeExec plat s) = (.error (.trap ⟨.illegalInstr, value⟩), u)) :
    ReportsOwnBits plat s word ↔ word.Survives isa := by
  constructor
  · intro reports
    obtain ⟨value, u, raised⟩ := raises
    obtain ⟨op, instr, decodes, left⟩ := raised_value rfl fetches raised
    rw [← Instruction.decoded_eq_ownBits_iff decodes]
    exact left.symm.trans (reports value u raised).1
  · intro survives value u raised
    obtain ⟨op, instr, decodes, left⟩ := raised_value rfl fetches raised
    have own : value = word.ownBits :=
      left.trans ((Instruction.decoded_eq_ownBits_iff decodes).mpr survives)
    refine ⟨own, fun t going ran => ?_⟩
    rw [recorded_value going raised ran]
    exact congrArg (BitVec.setWidth isa.xlen) own

end Step

/-- The halfword of zeros is no instruction, and there is nothing behind it. -/
theorem zero_reportsOwnBits : ReportsOwnBits Flat.platform (everywhere 0) 0 :=
  (reportsOwnBits_iff rfl ⟨0, _, Prod.ext (by decide) rfl⟩).mpr fun _ => ⟨rfl, nofun, rfl⟩

/-- `c.subw x8, x8`, which is no instruction in 32 bits. -/
def narrowSubw : Iss .rv32 Flat := reset 0 false 0 0 ⟨repeating (0x9c01#32 ++ 0x9c01#32), 0, none⟩

/-- The value is the word of `subw x8, x8, x8`. -/
theorem cSubw_not_reportsOwnBits : ¬ ∀ (s : Iss .rv32 Flat) (word : Instruction),
    fetched Flat.platform (beforeExec Flat.platform s) = some word →
      ReportsOwnBits Flat.platform s word := by
  intro reports
  have value := (reports narrowSubw 0x9c01 (by decide) 0x4084043b _ (Prod.ext (by decide) rfl)).1
  exact absurd value (by decide)

end Iss

end RiscvVp
