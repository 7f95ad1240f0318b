/-
# RiscvVp.Iss.Precise -- traps are precise

An instruction that ends in a trap has left the registers, the CSRs and the data memory
as they were, and the handler is entered with its address.  The one exception is meant:
a conditional store first sets its destination register to 1, so that it reads as failed
in case the store traps.
-/
import RiscvVp.Iss.Handlers
import RiscvVp.Iss.Walk

namespace RiscvVp

set_option autoImplicit false

open Lib Transition

/-! ## Memory that is not touched -/

section Memory

variable {World : Type} {plat : Platform World} {mem : World → ByteMemory}

/-- What the raw accesses go to is the memory `mem`, and nothing but a store changes it. -/
structure Platform.Backed (plat : Platform World) (mem : World → ByteMemory) : Prop where
  wait : ∀ {hart w w'}, plat.waitForAccessRights hart w = some w' → mem w' = mem w
  lock : ∀ {hart w w'}, plat.lock hart w = some w' → mem w' = mem w
  unlock : ∀ hart w, mem (plat.unlock hart w) = mem w
  busRead : ∀ addr n w, mem (plat.busRead addr n w).2 = mem w
  dmiRead : ∀ e addr n w, mem (plat.dmiRead e addr n w).2 = mem w
  refused : ∀ {addr n value w w'}, plat.busWrite addr n value w = (false, w') → mem w' = mem w
  updateAndGetMtime : ∀ w, mem (plat.updateAndGetMtime w).2 = mem w
  waitForInterrupt : ∀ {w w'}, plat.waitForInterrupt w = some w' → mem w' = mem w
  load : ∀ {hart addr n w data w'}, (plat.rawLoadData hart addr n).run w = (.ok data, w') →
    data = (mem w).read addr n ∧ mem w' = mem w
  store : ∀ {hart addr n value w r w'}, (plat.rawStoreData hart addr n value).run w = (r, w') →
    mem w' = mem w ∨ mem w' = (mem w).write addr n value

/-- No byte is written, but for the flags of an entry. -/
theorem Untouched.bytes (backed : plat.Backed mem) {w w' : World} (untouched : Untouched plat w w')
    (a : BitVec 64) : ∃ flags : BitVec 8, flags &&& 0x3F = 0 ∧ mem w' a = mem w a ||| flags := by
  have unchanged : ∀ {w w' : World}, mem w' = mem w →
      ∃ flags : BitVec 8, flags &&& 0x3F = 0 ∧ mem w' a = mem w a ||| flags := by
    intro w w' same
    exact ⟨0, rfl, by rw [same]; simp⟩
  induction untouched with
  | refl => exact unchanged rfl
  | trans _ _ first second =>
    obtain ⟨f, low, before⟩ := first
    obtain ⟨g, low', after⟩ := second
    refine ⟨f ||| g, ?_, by rw [after, before, BitVec.or_assoc]⟩
    rw [BitVec.and_or_distrib_right, low, low']
    rfl
  | wait answer => exact unchanged (backed.wait answer)
  | lock answer => exact unchanged (backed.lock answer)
  | unlock hart w => exact unchanged (backed.unlock hart w)
  | busRead addr n w => exact unchanged (backed.busRead addr n w)
  | dmiRead e addr n w => exact unchanged (backed.dmiRead e addr n w)
  | refused answer => exact unchanged (backed.refused answer)
  | updateAndGetMtime w => exact unchanged (backed.updateAndGetMtime w)
  | waitForInterrupt answer => exact unchanged (backed.waitForInterrupt answer)
  | @flags hart addr n pte type r w w₁ w₂ size loaded stored =>
    obtain ⟨rfl, same⟩ := backed.load loaded
    rcases backed.store stored with kept | written
    · exact unchanged (kept.trans same)
    have marked : mem w₂ = (mem w).orByte addr (Sv.flags type) := by
      rw [written, same]
      rcases size with rfl | rfl
      · exact Iss.write_pteOf .sv32 (mem w) addr type
      · exact Iss.write_pteOf .sv39 (mem w) addr type
    rw [marked]
    unfold ByteMemory.orByte
    split
    · exact ⟨Sv.flags type, by cases type <;> rfl, rfl⟩
    · exact ⟨0, rfl, by simp⟩

end Memory

namespace Iss

variable {isa : Isa} {World : Type} {plat : Platform World} {instr : Instruction}

/-! ## CSR instructions -/

theorem setCsrValue_error {addr : BitVec 12} {value : Word isa} {s t : Iss isa World} {e : Exc}
    (ran : (setCsrValue addr value).run s = (.error e, t)) : t = s := by
  rcases setCsrValue_cases addr value with illegal | ⟨a, -, write⟩
  · rw [illegal] at ran
    cases ran
    rfl
  · rw [write] at ran
    by_cases refused : Refused a s
    · rw [run_setNamedCsr_refused refused] at ran
      cases ran
      rfl
    · obtain ⟨v, accepted⟩ := run_setNamedCsr_ok refused value
      rw [accepted] at ran
      cases ran

/-- After a read of the same address a write does not trap. -/
theorem setCsrValue_of_read {addr : BitVec 12} {old value : Word isa} {s t u v : Iss isa World}
    {e : Exc} (got : (getCsrValue plat addr).run s = (.ok old, t))
    (status : u.csrs.reg = s.csrs.reg) (ran : (setCsrValue addr value).run u = (.error e, v)) :
    False := by
  unfold getCsrValue at got
  unfold setCsrValue at ran
  obtain ⟨_, s', validated, got⟩ := Exec.run_bind_eq_ok.mp got
  have same : s'.csrs.reg = s.csrs.reg :=
    (Sat.ok (inferInstance : Sat (Still plat) (validateCsrCounterReadAccessRights addr)) validated).reg
  cases found : CsrAddr.named addr with
  | none =>
    rw [found] at got
    cases got
  | some a =>
    rw [found] at got ran
    obtain ⟨w, accepted⟩ := run_setNamedCsr_of_read got (u := u) (by rw [status, same]) value
    dsimp only at ran
    rw [accepted] at ran
    cases ran

theorem Still.trap {s t : Iss isa World} (still : Still plat s none t) (e : SimulationTrap) :
    Still plat s (some (.trap e)) t :=
  { still with levels := fun _ same bad => by cases same; exact bad.elim }

section Csr

variable {src : Iss isa World → Word isa} {s t : Iss isa World} {e : SimulationTrap}

theorem still_execCsrWrite_trap
    (ran : (execCsrWrite instr plat (Exec.read src)).run s = (.error (.trap e), t)) :
    Still plat s (some (.trap e)) t := by
  unfold execCsrWrite at ran
  rcases Exec.run_bind_eq_error.mp ran with checking | ⟨invalid, s', checked, body⟩
  · exact Sat.error inferInstance checking
  cases invalid with
  | true =>
    have raised : Still plat s' (some (.trap e)) t :=
      Sat.error (inferInstance : Sat (Still plat) raiseIllegalInstruction) body
    exact Closed.trans (Sat.ok inferInstance checked) raised
  | false =>
    obtain ⟨rfl, -⟩ := isInvalidCsrAccess_passed checked
    rw [if_neg Bool.false_ne_true, Exec.run_read_bind] at body
    by_cases zero : regIndex instr.rd = 0
    · rw [Exec.when_neg (not_not.mpr zero), Exec.run_pure_bind] at body
      rw [setCsrValue_error body]
      exact Still.trap (Closed.refl s') e
    · rw [Exec.when_pos zero] at body
      rcases Exec.run_bind_eq_error.mp body with linking | ⟨_, u, linked, writing⟩
      · rcases Exec.run_bind_eq_error.mp linking with getting | ⟨_, _, _, stored⟩
        · exact Sat.error inferInstance getting
        · cases stored
      · obtain ⟨old, v, got, stored⟩ := Exec.run_bind_eq_ok.mp linked
        have still : Still plat s' none v := Sat.ok inferInstance got
        cases stored
        have status : (v.setReg (regIndex instr.rd) old).csrs.reg = s'.csrs.reg := still.reg
        exact (setCsrValue_of_read got status writing).elim

theorem still_execCsrModify_trap {f : Word isa → Word isa → Word isa}
    (ran : (execCsrModify instr plat (Exec.read src) f).run s = (.error (.trap e), t)) :
    Still plat s (some (.trap e)) t := by
  unfold execCsrModify at ran
  rcases Exec.run_bind_eq_error.mp ran with checking | ⟨invalid, s', checked, body⟩
  · exact Sat.error inferInstance checking
  cases invalid with
  | true =>
    have raised : Still plat s' (some (.trap e)) t :=
      Sat.error (inferInstance : Sat (Still plat) raiseIllegalInstruction) body
    exact Closed.trans (Sat.ok inferInstance checked) raised
  | false =>
    obtain ⟨rfl, -⟩ := isInvalidCsrAccess_passed checked
    rw [if_neg Bool.false_ne_true, Exec.run_read_bind] at body
    rcases Exec.run_bind_eq_error.mp body with getting | ⟨old, u, got, rest⟩
    · exact Sat.error inferInstance getting
    have still : Still plat s' none u := Sat.ok inferInstance got
    rw [Exec.run_bind_ok (run_link old u)] at rest
    split at rest
    · refine (setCsrValue_of_read got ?_ rest).elim
      rw [link_csrs]
      exact still.reg
    · cases rest

/-- A CSR instruction that traps has done nothing. -/
theorem still_csr_trap {op : Mapping} (csr : op.isCsr = true)
    (ran : (exec instr plat op).run s = (.error (.trap e), t)) :
    Still plat s (some (.trap e)) t := by
  cases swap : op.isCsrSwap with
  | true =>
    rw [exec_csr_swap swap] at ran
    exact still_execCsrWrite_trap ran
  | false =>
    rw [exec_csr_modify csr swap] at ran
    exact still_execCsrModify_trap ran

end Csr

/-! ## The conditional store -/

/-- A conditional store that traps: before it set `rd`, or after. -/
theorem execSc_trap {bytes : Nat} {s t : Iss isa World} {e : SimulationTrap}
    (ran : (execSc instr plat bytes).run s = (.error (.trap e), t)) :
    Still plat s (some (.trap e)) t ∨
      ∃ u, Still plat s none u ∧ Still plat (u.setReg (regIndex instr.rd) 1) (some (.trap e)) t := by
  unfold execSc at ran
  rw [run_readReg_bind] at ran
  dsimp only at ran
  rcases Exec.run_bind_eq_error.mp ran with aligning | ⟨_, u, aligned, rest⟩
  · exact .inl (Sat.error inferInstance aligning)
  refine .inr ⟨u, Sat.ok inferInstance aligned, ?_⟩
  rw [run_readReg_bind] at rest
  rcases Exec.run_bind_eq_error.mp rest with preset | ⟨_, v, preset, storing⟩
  · cases preset
  cases preset
  rcases Exec.run_bind_eq_error.mp storing with refused | ⟨stored, w, -, after⟩
  · have precise : ∀ (addr : Word isa) value, Sat (Atomic (Plain plat) (Still plat) IsTrap)
        (atomicStoreConditionalData plat (dataAddr addr) bytes value : IssM isa World Bool) :=
      fun _ _ => inferInstance
    exact ((precise _ _).error refused).2 _ rfl trivial
  · cases after

/-! ## The step -/

/-- What a step that trapped at `s` has left behind in `t`. -/
def Unharmed (plat : Platform World) (s t : Iss isa World) : Prop :=
  t.fpRegs = s.fpRegs ∧ t.lastPc = s.lastPc ∧ t.prv = s.prv ∧ t.csrs.reg = s.csrs.reg ∧
    Untouched plat s.world t.world ∧
    (t.regs = s.regs ∨ ∃ op instr, nextInstr plat s = some (op, instr) ∧ op.isSc = true ∧
      t.regs = (s.setReg (regIndex instr.rd) 1).regs)

/-- A step that throws does so before its instruction, or in it. -/
theorem execStep_error {s t : Iss isa World} {e : Exc}
    (ran : (execStep plat).run s = (.error e, t)) : Still plat s (some e) t ∨
      ∃ u, Still plat s none u ∧ nextInstr plat s = some (u.op, u.instr) ∧
        (exec u.instr plat u.op).run u = (.error e, t) := by
  unfold execStep at ran
  rw [Exec.run_read_bind] at ran
  rcases Exec.run_bind_eq_error.mp ran with asserting | ⟨_, s', asserted, body⟩
  · exact .inl ((satAt_assert (Still plat) id).error asserting)
  obtain ⟨-, rfl⟩ := assert_ok asserted
  rcases Exec.run_bind_eq_error.mp body with fetching | ⟨_, v, fetched, rest⟩
  · exact .inl (Sat.error inferInstance fetching)
  have first : Still plat s' none v := Sat.ok inferInstance fetched
  rcases Exec.run_bind_eq_error.mp rest with decoding | ⟨_, u, decoded, executed⟩
  · exact .inl (Closed.trans first (Sat.error inferInstance decoding))
  rw [Exec.run_read_bind, Exec.run_read_bind] at executed
  refine .inr ⟨u, Closed.trans first (Sat.ok inferInstance decoded), ?_, executed⟩
  exact nextInstr_of_decoded (Exec.run_bind_eq_ok.mpr ⟨(), v, fetched, decoded⟩)

/-- The trap returns check before they do anything. -/
theorem still_return_trap {op : Mapping} (ret : op.isReturn = true) {s t : Iss isa World}
    {e : SimulationTrap} (ran : (exec instr plat op).run s = (.error (.trap e), t)) :
    Still plat s (some (.trap e)) t := by
  cases op
  case uret =>
    have unfolded : (execUret : IssM isa World Unit).run s = (.error (.trap e), t) := ran
    unfold execUret at unfolded
    rw [Exec.run_read_bind] at unfolded
    rcases Exec.run_bind_eq_error.mp unfolded with checking | ⟨_, _, _, returning⟩
    · exact Sat.error inferInstance checking
    · cases returning
  case sret =>
    have unfolded : (execSret : IssM isa World Unit).run s = (.error (.trap e), t) := ran
    unfold execSret at unfolded
    rw [Exec.run_read_bind, Exec.run_read_bind, run_readField_bind] at unfolded
    rcases Exec.run_bind_eq_error.mp unfolded with checking | ⟨_, _, _, returning⟩
    · exact Sat.error inferInstance checking
    · cases returning
  case mret => cases ran
  all_goals cases ret

theorem isSc_exec {op : Mapping} (sc : op.isSc = true) {s t : Iss isa World} {e : SimulationTrap}
    (ran : (exec instr plat op).run s = (.error (.trap e), t)) :
    Still plat s (some (.trap e)) t ∨
      ∃ u, Still plat s none u ∧ Still plat (u.setReg (regIndex instr.rd) 1) (some (.trap e)) t := by
  cases op
  case scW =>
    have unfolded : (do requireIsa (Misa.A isa); execSc instr plat 4 : IssM isa World Unit).run s =
      (.error (.trap e), t) := ran
    rcases Exec.run_bind_eq_error.mp unfolded with requiring | ⟨_, v, required, storing⟩
    · exact .inl (Sat.error inferInstance requiring)
    have first : Still plat s none v := Sat.ok inferInstance required
    rcases execSc_trap storing with before | ⟨u, until_, after⟩
    · exact .inl (Closed.trans first before)
    · exact .inr ⟨u, Closed.trans first until_, after⟩
  case scD =>
    cases isa with
    | rv32 =>
      exact .inl (Sat.error (inferInstance : Sat (Still plat) raiseIllegalInstruction) ran)
    | rv64 => exact execSc_trap ran
  all_goals cases sc

theorem execStep_unharmed {s t : Iss isa World} {e : SimulationTrap}
    (ran : (execStep plat).run s = (.error (.trap e), t)) : Unharmed plat s t := by
  have quiet : Still plat s (some (.trap e)) t → Unharmed plat s t := fun still =>
    ⟨still.fpRegs, still.lastPc, still.prv, still.reg, still.world, .inl still.regs⟩
  rcases execStep_error ran with still | ⟨u, first, next, executed⟩
  · exact quiet still
  cases csr : u.op.isCsr with
  | true => exact quiet (Closed.trans first (still_csr_trap csr executed))
  | false =>
  cases ret : u.op.isReturn with
  | true => exact quiet (Closed.trans first (still_return_trap ret executed))
  | false =>
  cases sc : u.op.isSc with
  | false =>
    have ordinary : u.op.isOrdinary = true := by simp [Mapping.isOrdinary, csr, ret, sc]
    have precise := (precise_exec u.instr plat ordinary).error executed
    exact quiet (Closed.trans first (precise.2 _ rfl trivial))
  | true =>
    rcases isSc_exec sc executed with before | ⟨v, until_, after⟩
    · exact quiet (Closed.trans first before)
    have reached : Still plat s none v := Closed.trans first until_
    refine ⟨after.fpRegs.trans reached.fpRegs, after.lastPc.trans reached.lastPc,
      after.prv.trans reached.prv, after.reg.trans reached.reg, reached.world.trans after.world,
      .inr ⟨u.op, u.instr, next, sc, ?_⟩⟩
    rw [after.regs]
    unfold setReg
    rw [reached.regs]

/-! ## The handler -/

/-- The `xepc` of the level the core is at. -/
def epc (s : Iss isa World) : Word isa :=
  if s.prv = machineMode then s.csrs.reg .mepc
  else if s.prv = supervisorMode then s.csrs.reg .sepc
  else s.csrs.reg .uepc

/-- Registers, program counter and data memory stay. -/
structure Calm (plat : Platform World) (s : Iss isa World) (_ : Option Exc) (t : Iss isa World) :
    Prop where
  regs : t.regs = s.regs
  fpRegs : t.fpRegs = s.fpRegs
  pc : t.pc = s.pc
  world : Untouched plat s.world t.world

instance : Closed (@Calm isa World plat) where
  refl _ := ⟨rfl, rfl, rfl, .refl _⟩
  trans first second :=
    ⟨second.regs.trans first.regs, second.fpRegs.trans first.fpRegs, second.pc.trans first.pc,
      first.world.trans second.world⟩

instance (c : Csr) (value : Word isa) : Sat (Calm plat) (writeCsr c value : IssM isa World Unit) :=
  .update fun _ => ⟨rfl, rfl, rfl, .refl _⟩

instance (condition : Prop) [Decidable condition] (cause : Abort) :
    Sat (Calm plat) (assert condition cause : IssM isa World Unit) := by
  have aborted : Sat (Calm plat) (abort cause : IssM isa World Unit) :=
    .raise fun _ => ⟨rfl, rfl, rfl, .refl _⟩
  unfold assert
  infer_instance

instance (mtval : BitVec 64) : Sat (Calm plat) (trapValue mtval : IssM isa World (Word isa)) := by
  unfold trapValue
  infer_instance

theorem prepareTrap_ok {e : SimulationTrap} {s t : Iss isa World} {mode : PrivilegeLevel}
    (ran : (prepareTrap e).run s = (.ok mode, t)) : Calm plat { s with pc := s.lastPc } none t := by
  unfold prepareTrap at ran
  rw [Exec.run_read_bind] at ran
  obtain ⟨_, u, moved, rest⟩ := Exec.run_bind_eq_ok.mp ran
  cases moved
  refine Sat.ok ?_ rest
  repeat refine .bind inferInstance fun _ => ?_
  infer_instance

/-- The handler is entered with the program counter in `xepc`. -/
theorem switchToTrapHandler_ok {mode : PrivilegeLevel} (known : KnownLevel mode) {s t : Iss isa World}
    (ran : (switchToTrapHandler plat mode).run s = (.ok (), t)) :
    t.regs = s.regs ∧ t.fpRegs = s.fpRegs ∧ Untouched plat s.world t.world ∧ t.epc = s.pc := by
  rw [run_switchToTrapHandler s plat known] at ran
  cases ran
  refine ⟨rfl, rfl, .unlock s.hartId s.world, ?_⟩
  rcases known with rfl | rfl | rfl <;> rfl

/-- At the entry of the handler of a trap the registers and the data memory are as they
were when the instruction started, but for the destination of a conditional store that
trapped, and `xepc` is the address of the instruction.  The level and the CSRs were kept
up to the entry. -/
theorem trap_precise {s t u : Iss isa World} {e : SimulationTrap}
    (raised : (execStep plat).run { s with lastPc := s.pc } = (.error (.trap e), t))
    (entered : (takeTrap plat (.trap e)).run t = (.ok (), u)) :
    u.fpRegs = s.fpRegs ∧ Untouched plat s.world u.world ∧ u.epc = s.pc ∧ t.prv = s.prv ∧
      t.csrs.reg = s.csrs.reg ∧
      (u.regs = s.regs ∨ ∃ op instr, nextInstr plat { s with lastPc := s.pc } = some (op, instr) ∧
        op.isSc = true ∧ u.regs = (s.setReg (regIndex instr.rd) 1).regs) := by
  obtain ⟨fpRegs, lastPc, prv, csrs, world, regs⟩ := execStep_unharmed raised
  obtain ⟨mode, v, prepared, switched⟩ := Exec.run_bind_eq_ok.mp entered
  have calm : Calm plat { t with pc := t.lastPc } none v := prepareTrap_ok prepared
  obtain ⟨regs', fpRegs', world', epc⟩ := switchToTrapHandler_ok (prepareTrap_known e prepared) switched
  refine ⟨?_, ?_, ?_, prv, csrs, ?_⟩
  · rw [fpRegs', calm.fpRegs]
    exact fpRegs
  · exact world.trans (calm.world.trans world')
  · rw [epc, calm.pc]
    exact lastPc
  · rw [regs', calm.regs]
    exact regs

/-- User code at 0x20 with a number in `x5`, in front of an illegal instruction. -/
def illegalCore : Iss .rv64 Flat :=
  { everywhere 0 with pc := 0x20, prv := userMode, regs := fun r => if r = 5 then 7 else 0 }

theorem illegal_precise : ∃ t u, (execStep Flat.platform).run { illegalCore with lastPc := illegalCore.pc } =
      (.error (.trap ⟨.illegalInstr, 0⟩), t) ∧
    (takeTrap Flat.platform (.trap ⟨.illegalInstr, 0⟩)).run t = (.ok (), u) ∧
      u.prv = machineMode ∧ u.epc = 0x20 ∧ u.regs 5 = 7 := by
  have raised : (execStep Flat.platform).run { illegalCore with lastPc := illegalCore.pc } =
      (.error (.trap ⟨.illegalInstr, 0⟩), _) := Prod.ext (by decide) rfl
  have entered : (takeTrap Flat.platform (.trap ⟨.illegalInstr, 0⟩)).run
      ((execStep Flat.platform).run { illegalCore with lastPc := illegalCore.pc }).2 = (.ok (), _) :=
    Prod.ext (by decide) rfl
  have precise := trap_precise raised entered
  refine ⟨_, _, raised, entered, by decide, precise.2.2.1, ?_⟩
  rcases precise.2.2.2.2.2 with same | ⟨op, instr, next, sc, -⟩
  · exact (congrFun same 5).trans (by decide)
  · have illegal : nextInstr Flat.platform { illegalCore with lastPc := illegalCore.pc } = some (.undef, 0) := by
      decide
    cases illegal.symm.trans next
    cases sc

/-- A core that holds the reservation of address 0 and is about to execute `sc.w x5, x0, (x0)`
there; the page is not writable. -/
def scCore : Iss .rv64 Flat :=
  pagedCore 0x8000000000000001 supervisorMode
    ⟨ByteMemory.write (repeating 0x4B) 0 4 0x180022AF#32, 0, some 0⟩

/-- The store traps and `x5` has become 1. -/
theorem sc_trap_sets_rd : ¬ ∀ (s t u : Iss .rv64 Flat) (e : SimulationTrap),
    (execStep Flat.platform).run { s with lastPc := s.pc } = (.error (.trap e), t) →
    (takeTrap Flat.platform (.trap e)).run t = (.ok (), u) → u.regs = s.regs := by
  intro precise
  have same := precise scCore _ _ ⟨.storeAmoPageFault, 0⟩ (Prod.ext (by decide) rfl)
    (Prod.ext (by decide) rfl)
  exact absurd (congrFun same 5) (by decide)

end Iss

end RiscvVp
