/-
# RiscvVp.Iss.TrapStep -- a step that ends in a trap

`prepare_trap` chooses the level by the delegation registers and fills its cause and its trap
value, `switch_to_trap_handler` stacks the rest, and `run_step` goes on behind the `catch`
clause.  The whole of it on the RV64 core, where nothing in it can fail.
-/
import RiscvVp.Iss.Interrupts
import RiscvVp.Iss.Precise

namespace RiscvVp.Iss

set_option autoImplicit false

open Lib Transition

variable {isa : Isa} {World : Type}

/-! ## The level -/

/-- The level that handles an exception, from the level the core is at. -/
def trapLevel (reason : ExceptionCode) (s : Iss isa World) : PrivilegeLevel :=
  if s.prv = machineMode ∨ (s.csrs.reg .medeleg).getLsbD reason.code = false then machineMode
  else if s.prv = supervisorMode ∨ (s.csrs.reg .sedeleg).getLsbD reason.code = false then
    supervisorMode
  else userMode

theorem delegated_eq (reason : ExceptionCode) (delegation : Word isa) :
    delegated reason delegation = delegation.getLsbD reason.code := by
  have small : reason.code < 16 := by cases reason <;> decide
  have bit : ∀ i, ((1#32 <<< reason.code).setWidth isa.xlen).getLsbD i =
      (decide (i < isa.xlen) && decide (i = reason.code)) := by
    intro i
    rw [BitVec.getLsbD_setWidth, BitVec.getLsbD_shiftLeft, BitVec.getLsbD_one]
    by_cases same : i = reason.code
    · subst same
      simp [show reason.code < 32 by omega]
    · by_cases above : i < reason.code
      · simp [same, above]
      · have apart : i - reason.code ≠ 0 := by omega
        simp [same, apart]
  unfold delegated
  cases set : delegation.getLsbD reason.code with
  | true =>
    have inside : reason.code < isa.xlen := by
      by_contra outside
      rw [BitVec.getLsbD_of_ge _ _ (Nat.le_of_not_lt outside)] at set
      cases set
    rw [bne_iff_ne, ne_zero_iff_bits]
    exact ⟨reason.code, by rw [BitVec.getLsbD_and, bit, set]; simp [inside]⟩
  | false =>
    rw [bne_eq_false_iff_eq, eq_zero_iff_bits]
    intro i
    rw [BitVec.getLsbD_and, bit]
    by_cases same : i = reason.code
    · subst same
      rw [set, Bool.and_false]
    · simp [same]

theorem trapLevel_known (reason : ExceptionCode) (s : Iss isa World) :
    KnownLevel (trapLevel reason s) := by
  unfold trapLevel
  split
  · exact .inr (.inr rfl)
  split
  · exact .inr (.inl rfl)
  · exact .inl rfl

/-- A trap does not lower the level. -/
theorem le_trapLevel {reason : ExceptionCode} {s : Iss isa World} (known : KnownLevel s.prv) :
    s.prv ≤ trapLevel reason s := by
  unfold trapLevel
  rcases known with user | supervisor | machine
  · rw [user]
    bv_omega
  · rw [supervisor]
    split
    · decide
    · rw [if_pos (.inl rfl)]
      decide
  · rw [if_pos (.inl machine), machine]
    decide

/-! ## `prepare_trap` -/

/-- The core when the handler of a trap is about to be entered. -/
def prepared (level : PrivilegeLevel) (e : SimulationTrap) (s : Iss isa World) : Iss isa World :=
  ({ s with pc := s.lastPc }.setCsr (trapRegs level).cause (causeValue false e.reason.code)).setCsr
    (trapRegs level).tval (e.mtval.setWidth isa.xlen)

/-- The cause and the value of a trap, in the registers of a level. -/
def recordTrap (level : PrivilegeLevel) (e : SimulationTrap) : IssM isa World PrivilegeLevel := do
  writeCsr (trapRegs level).cause (causeValue false e.reason.code)
  writeCsr (trapRegs level).tval (← trapValue e.mtval)
  return level

theorem assert_congr {p q : Prop} [Decidable p] [Decidable q] (same : p ↔ q) (cause : Abort) :
    (assert p cause : IssM isa World Unit) = assert q cause := by
  unfold assert
  simp only [same]

/-- The level is chosen, then the trap is recorded there; user mode takes its own traps only. -/
theorem run_prepareTrap_eq (e : SimulationTrap) (s : Iss isa World) :
    (prepareTrap e).run s = (do
      assert (trapLevel e.reason s = userMode → s.prv = userMode) .trapDelegation
      recordTrap (trapLevel e.reason s) e : IssM isa World PrivilegeLevel).run { s with pc := s.lastPc } := by
  have moved : (setPc s.lastPc).run s = (.ok (), { s with pc := s.lastPc }) := rfl
  have below : machineMode ≠ userMode ∧ supervisorMode ≠ userMode := by decide
  unfold prepareTrap
  rw [Exec.run_read_bind, Exec.run_bind_ok moved, Exec.run_read_bind, run_readCsr_bind, run_readCsr_bind]
  simp only [delegated_eq]
  by_cases machine : s.prv = machineMode ∨ (s.csrs.reg .medeleg).getLsbD e.reason.code = false
  · have level : trapLevel e.reason s = machineMode := if_pos machine
    rw [if_pos machine, level, run_assert_bind _ fun user => absurd user below.1]
    rfl
  by_cases supervisor : s.prv = supervisorMode ∨ (s.csrs.reg .sedeleg).getLsbD e.reason.code = false
  · have level : trapLevel e.reason s = supervisorMode := (if_neg machine).trans (if_pos supervisor)
    rw [if_neg machine, if_pos supervisor, level, run_assert_bind _ fun user => absurd user below.2]
    rfl
  have level : trapLevel e.reason s = userMode := (if_neg machine).trans (if_neg supervisor)
  have asked : (trapLevel e.reason s = userMode → s.prv = userMode) ↔ s.prv = userMode :=
    ⟨fun own => own level, fun user _ => user⟩
  rw [if_neg machine, if_neg supervisor, assert_congr asked, level]
  rfl

/-- On a level that exists no assertion fails, where the trap value is a word. -/
theorem run_prepareTrap {e : SimulationTrap} {s : Iss isa World} (known : KnownLevel s.prv)
    (fits : isa = .rv32 → e.mtval.toNat < 2 ^ 32) :
    (prepareTrap e).run s = (.ok (trapLevel e.reason s), prepared (trapLevel e.reason s) e s) := by
  have value : ∀ u : Iss isa World, (trapValue e.mtval).run u = (.ok (e.mtval.setWidth isa.xlen), u) :=
    fun u => run_assert_bind u fits _ _
  have user : trapLevel e.reason s = userMode → s.prv = userMode := by
    intro user
    have lower : s.prv ≤ trapLevel e.reason s := le_trapLevel known
    rw [user] at lower
    bv_omega
  rw [run_prepareTrap_eq, run_assert_bind _ user]
  unfold recordTrap
  rw [run_writeCsr_bind, Exec.run_bind_ok (value _)]
  rfl

/-- Where it returns, it has recorded the trap. -/
theorem prepareTrap_eq_ok {e : SimulationTrap} {s t : Iss isa World} {level : PrivilegeLevel}
    (ran : (prepareTrap e).run s = (.ok level, t)) :
    level = trapLevel e.reason s ∧ t = prepared (trapLevel e.reason s) e s := by
  rw [run_prepareTrap_eq] at ran
  obtain ⟨_, u, checked, recorded⟩ := Exec.run_bind_eq_ok.mp ran
  obtain ⟨-, rfl⟩ := assert_ok checked
  unfold recordTrap at recorded
  rw [run_writeCsr_bind] at recorded
  obtain ⟨value, v, valued, rest⟩ := Exec.run_bind_eq_ok.mp recorded
  obtain ⟨_, w, fits, cut⟩ := Exec.run_bind_eq_ok.mp valued
  obtain ⟨-, rfl⟩ := assert_ok fits
  cases cut
  cases rest
  exact ⟨rfl, rfl⟩

/-! ## Behind the `catch` clause -/

/-- It returns, and program counter, level and registers stay. -/
structure Counting (s : Iss isa World) (o : Option Exc) (t : Iss isa World) : Prop where
  returns : o = none
  pc : t.pc = s.pc
  prv : t.prv = s.prv
  reg : t.csrs.reg = s.csrs.reg

instance : Closed (@Counting isa World) where
  refl _ := ⟨rfl, rfl, rfl, rfl⟩
  trans first second :=
    ⟨second.returns, second.pc.trans first.pc, second.prv.trans first.prv, second.reg.trans first.reg⟩

theorem counting_performance (plat : Platform World) :
    Sat Counting (performanceAndSyncUpdate plat : IssM isa World Unit) := by
  have instret : ∀ k value, Sat Counting (setCounter k value : IssM isa World Unit) :=
    fun k value => .update fun _ => ⟨rfl, rfl, rfl, by cases k <;> rfl⟩
  have counter : ∀ n, Sat Counting (setLrScCounter n : IssM isa World Unit) :=
    fun _ => .update fun _ => ⟨rfl, rfl, rfl, rfl⟩
  have release : Sat Counting (releaseLrScReservation plat : IssM isa World Unit) :=
    ⟨fun _ => ⟨rfl, rfl, rfl, rfl⟩⟩
  have cycles : Sat Counting (Exec.update fun s : Iss isa World =>
      { s with cycleCounter := s.cycleCounter + instrCycles s.op }) :=
    .update fun _ => ⟨rfl, rfl, rfl, rfl⟩
  have read : ∀ f : Field 1, Sat Counting (readField .mcountinhibit f : IssM isa World _) :=
    fun _ => ⟨fun _ => ⟨rfl, rfl, rfl, rfl⟩⟩
  unfold performanceAndSyncUpdate
  repeat refine .bind inferInstance fun _ => ?_
  infer_instance

theorem Sat.counts {m : IssM isa World Unit} (sat : Sat Counting m) (s : Iss isa World) :
    ∃ t, m.run s = (.ok (), t) ∧ Counting s none t := by
  have step := sat.holds s
  cases ran : m.run s with
  | mk result t =>
    rw [ran] at step
    cases result with
    | ok _ => exact ⟨t, rfl, step⟩
    | error e => cases step.returns

/-- A step whose `try` block returns goes on to its end. -/
theorem runStep_of_try {plat : Platform World} {s u : Iss isa World} (zero : s.regs 0 = 0)
    (going : ¬ Stopped s)
    (tried : ((execAndInterrupt plat).tryCatch (takeTrap plat)).run (beforeExec plat s) = (.ok (), u)) :
    ∃ t, (runStep plat).run s = (.ok (), t) ∧ Counting u none t := by
  have finish : Sat Counting (do
      writeReg 0 0
      Exec.when (← Exec.read shallExit) (setStatus .terminated)
      performanceAndSyncUpdate plat : IssM isa World Unit) := by
    have zeroed : Sat Counting (writeReg 0 0 : IssM isa World Unit) :=
      .update fun _ => ⟨rfl, rfl, rfl, rfl⟩
    have ended : Sat Counting (setStatus .terminated : IssM isa World Unit) :=
      .update fun _ => ⟨rfl, rfl, rfl, rfl⟩
    have counted := @counting_performance isa World plat
    infer_instance
  obtain ⟨t, ran, counting⟩ := Sat.counts finish u
  refine ⟨t, ?_, counting⟩
  have unstopped : ¬ (s.debugMode && s.pc ∈ s.breakpoints) = true := by
    simpa [Stopped] using going
  unfold runStep
  rw [Exec.run_read_bind, run_assert_bind s zero, if_neg unstopped]
  have linked : (do
      pollInterrupts plat
      Exec.update fun s => { s with lastPc := s.pc } : IssM isa World Unit).run s =
        (.ok (), beforeExec plat s) := rfl
  obtain ⟨_, v, polled, moved⟩ := Exec.run_bind_eq_ok.mp linked
  rw [Exec.run_bind_ok polled, Exec.run_bind_ok moved, Exec.run_bind_ok tried]
  exact ran

/-! ## The step -/

/-- The handler of a trap, at the level that the delegation chooses. -/
structure TrapEntered (s : Iss isa World) (e : SimulationTrap) (t : Iss isa World) : Prop where
  level : t.prv = trapLevel e.reason s
  higher : s.prv ≤ t.prv
  epc : t.csrs.reg (trapRegs t.prv).epc = s.pc
  cause : t.csrs.reg (trapRegs t.prv).cause = BitVec.ofNat isa.xlen e.reason.code
  tval : t.csrs.reg (trapRegs t.prv).tval = e.mtval.setWidth isa.xlen
  pie : (trapRegs t.prv).pie.get (t.csrs.reg .mstatus) =
    (trapRegs t.prv).ie.get (s.csrs.reg .mstatus)
  ie : (trapRegs t.prv).ie.get (t.csrs.reg .mstatus) = 0#1
  pc : t.pc = s.csrs.reg (trapRegs t.prv).tvec &&& ~~~3
  others : ∀ other, KnownLevel other → other ≠ t.prv →
    t.csrs.reg (trapRegs other).epc = s.csrs.reg (trapRegs other).epc ∧
    t.csrs.reg (trapRegs other).cause = s.csrs.reg (trapRegs other).cause ∧
    t.csrs.reg (trapRegs other).tval = s.csrs.reg (trapRegs other).tval

theorem causeValue_exception (reason : ExceptionCode) :
    (causeValue false reason.code : Word isa) = BitVec.ofNat isa.xlen reason.code := by
  cases isa <;> simp [causeValue]

/-- Exceptions are not vectored. -/
theorem handlerAddress_exception (tvec : Word isa) (reason : ExceptionCode) :
    handlerAddress tvec (causeValue false reason.code) = tvec &&& ~~~3 := by
  have clear : (causeValue false reason.code : Word isa).msb = false := by
    cases isa <;> cases reason <;> decide
  unfold handlerAddress
  dsimp only
  rw [if_neg]
  rintro ⟨set, -⟩
  rw [clear] at set
  cases set

/-- The handler of a trap, entered at a level. -/
theorem entered_prepared (plat : Platform World) {level : PrivilegeLevel} (known : KnownLevel level)
    (e : SimulationTrap) (u : Iss isa World) :
    (entered plat level (prepared level e u)).csrs.reg (trapRegs level).epc = u.lastPc ∧
    (entered plat level (prepared level e u)).csrs.reg (trapRegs level).cause =
      causeValue false e.reason.code ∧
    (entered plat level (prepared level e u)).csrs.reg (trapRegs level).tval =
      e.mtval.setWidth isa.xlen ∧
    (entered plat level (prepared level e u)).csrs.reg .mstatus =
      pushed level u.prv (u.csrs.reg .mstatus) ∧
    (entered plat level (prepared level e u)).pc = u.csrs.reg (trapRegs level).tvec &&& ~~~3 := by
  refine ⟨?_, ?_, ?_, ?_, ?_⟩
  · rcases known with rfl | rfl | rfl <;> rfl
  · rcases known with rfl | rfl | rfl <;> rfl
  · rcases known with rfl | rfl | rfl <;> rfl
  · rcases known with rfl | rfl | rfl <;> rfl
  · rw [← handlerAddress_exception _ e.reason]
    rcases known with rfl | rfl | rfl <;> rfl

/-- ... leaves the registers of the other levels. -/
theorem entered_prepared_other (plat : Platform World) {level other : PrivilegeLevel}
    (known : KnownLevel level) (exists_ : KnownLevel other) (apart : other ≠ level)
    (e : SimulationTrap) (u : Iss isa World) {c : Csr}
    (own : c = (trapRegs other).epc ∨ c = (trapRegs other).cause ∨ c = (trapRegs other).tval) :
    (entered plat level (prepared level e u)).csrs.reg c = u.csrs.reg c := by
  rcases known with rfl | rfl | rfl <;> rcases exists_ with rfl | rfl | rfl
  all_goals first
    | exact absurd rfl apart
    | rcases own with rfl | rfl | rfl <;> rfl

theorem trapEntered_of_taken {plat : Platform World} {s u : Iss isa World} {e : SimulationTrap}
    (known : KnownLevel s.prv) (prv : u.prv = s.prv) (lastPc : u.lastPc = s.pc)
    (reg : ∀ c, c ≠ .mip → u.csrs.reg c = s.csrs.reg c) :
    TrapEntered s e (entered plat (trapLevel e.reason u) (prepared (trapLevel e.reason u) e u)) := by
  have level : trapLevel e.reason u = trapLevel e.reason s := by
    unfold trapLevel
    rw [prv, reg .medeleg nofun, reg .sedeleg nofun]
  have exists_ := trapLevel_known e.reason u
  have tvec : (trapRegs (trapLevel e.reason u)).tvec ≠ .mip := by
    rcases exists_ with same | same | same <;> rw [same] <;> decide
  obtain ⟨epc, cause, tval, status, pc⟩ := entered_prepared plat exists_ e u
  refine ⟨level, ?_, ?_, ?_, ?_, ?_, ?_, ?_, ?_⟩
  · show s.prv ≤ trapLevel e.reason u
    rw [level]
    exact le_trapLevel known
  · exact epc.trans lastPc
  · exact cause.trans (causeValue_exception e.reason)
  · exact tval
  · rw [status, reg .mstatus nofun]
    exact pie_pushed exists_
  · rw [status]
    exact ie_pushed exists_
  · rw [pc, reg _ tvec]
    rfl
  · intro other known' apart
    have same : ∀ {c : Csr}, c = (trapRegs other).epc ∨ c = (trapRegs other).cause ∨
        c = (trapRegs other).tval → c ≠ .mip →
        (entered plat (trapLevel e.reason u) (prepared (trapLevel e.reason u) e u)).csrs.reg c =
          s.csrs.reg c :=
      fun own ordinary => (entered_prepared_other plat exists_ known' apart e u own).trans (reg _ ordinary)
    have ordinary : (trapRegs other).epc ≠ .mip ∧ (trapRegs other).cause ≠ .mip ∧
        (trapRegs other).tval ≠ .mip := by
      rcases known' with rfl | rfl | rfl <;> decide
    exact ⟨same (.inl rfl) ordinary.1, same (.inr (.inl rfl)) ordinary.2.1,
      same (.inr (.inr rfl)) ordinary.2.2⟩

theorem TrapEntered.counting {s u t : Iss isa World} {e : SimulationTrap} (entered : TrapEntered s e u)
    (counting : Counting u none t) : TrapEntered s e t := by
  obtain ⟨level, higher, epc, cause, tval, pie, ie, pc, others⟩ := entered
  rw [← counting.prv] at level higher epc cause tval pie ie pc others
  rw [← counting.reg] at epc cause tval pie ie others
  rw [← counting.pc] at pc
  exact ⟨level, higher, epc, cause, tval, pie, ie, pc, others⟩

/-- A step of the RV64 core whose instruction traps enters the handler, and returns. -/
theorem runStep_traps {plat : Platform World} {s u : Iss .rv64 World} {e : SimulationTrap}
    (zero : s.regs 0 = 0) (going : ¬ Stopped s) (known : KnownLevel s.prv)
    (raised : (execStep plat).run (beforeExec plat s) = (.error (.trap e), u)) :
    ∃ t, (runStep plat).run s = (.ok (), t) ∧ TrapEntered s e t := by
  obtain ⟨-, lastPc, prv, reg, -, -⟩ := execStep_unharmed raised
  have exists_ : KnownLevel u.prv := prv ▸ known
  have taken : (takeTrap plat (.trap e)).run u =
      (.ok (), entered plat (trapLevel e.reason u) (prepared (trapLevel e.reason u) e u)) := by
    have prepares := run_prepareTrap (e := e) exists_ nofun
    exact (Exec.run_bind_ok prepares).trans
      (run_switchToTrapHandler _ plat (trapLevel_known e.reason u))
  have thrown : (execAndInterrupt plat).run (beforeExec plat s) = (.error (.trap e), u) :=
    Exec.run_bind_error raised
  obtain ⟨t, ran, counting⟩ :=
    runStep_of_try zero going ((Exec.run_tryCatch_error thrown).trans taken)
  refine ⟨t, ran, TrapEntered.counting (trapEntered_of_taken known prv lastPc fun c other => ?_) counting⟩
  rw [reg]
  exact setCsr_reg_of_ne _ other _

/-- An illegal instruction out of reset. -/
theorem illegal_entered : ∃ t, (runStep Flat.platform).run (everywhere 0) = (.ok (), t) ∧
    TrapEntered (everywhere 0) ⟨.illegalInstr, 0⟩ t :=
  runStep_traps rfl (fun stopped => absurd stopped.1 (by decide)) (.inr (.inr rfl))
    (Prod.ext (by decide) rfl)

end RiscvVp.Iss
