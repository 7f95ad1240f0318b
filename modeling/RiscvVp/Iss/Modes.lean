/-
# RiscvVp.Iss.Modes -- a step, for a transition that allows its parts

What traps, interrupts and the returns from them do to the core is a fixed list of small
changes.  A transition that allows them (`Modes`), next to what the instructions do, is one
of `run_step` as soon as it is one of the CSR instructions.
-/
import RiscvVp.Iss.Run

namespace RiscvVp

set_option autoImplicit false

open Lib Transition

/-- The registers of the trap handlers. -/
def Csr.isTrap : Csr → Bool
  | .mepc | .mcause | .mtval | .sepc | .scause | .stval | .uepc | .ucause | .utval | .mip => true
  | _ => false

/-- The registers that `prepare_trap` and `prepare_interrupt` fill. -/
def Csr.describesTrap : Csr → Bool
  | .mcause | .scause | .ucause | .mtval | .stval | .utval => true
  | _ => false

instance : OrdinaryAbort .trapDelegation := ⟨fun _ => trivial⟩
instance : OrdinaryAbort .noPendingInterrupt := ⟨fun _ => trivial⟩

namespace Iss

variable {isa : Isa} {World : Type}

/-- `switch_to_trap_handler`, from where the reservation has been given up. -/
def enterHandler (targetMode : PrivilegeLevel) : IssM isa World Unit := do
  let pp ← Exec.read prv
  setPrv targetMode
  if targetMode = machineMode then
    writeCsr .mepc (← Exec.read pc)
    writeField .mstatus Mstatus.mpie (← readField .mstatus Mstatus.mie)
    writeField .mstatus Mstatus.mie 0#1
    writeField .mstatus Mstatus.mpp pp
    setPc (handlerAddress (← readCsr .mtvec) (← readCsr .mcause))
  else if targetMode = supervisorMode then
    writeCsr .sepc (← Exec.read pc)
    writeField .mstatus Mstatus.spie (← readField .mstatus Mstatus.sie)
    writeField .mstatus Mstatus.sie 0#1
    writeField .mstatus Mstatus.spp (pp.setWidth 1)
    setPc (handlerAddress (← readCsr .stvec) (← readCsr .scause))
  else if targetMode = userMode then
    writeCsr .uepc (← Exec.read pc)
    writeField .mstatus Mstatus.upie (← readField .mstatus Mstatus.uie)
    writeField .mstatus Mstatus.uie 0#1
    setPc (handlerAddress (← readCsr .utvec) (← readCsr .ucause))
  else abort .unknownPrivilegeLevel

/-- Changes of the level, of the registers of the trap handlers and of `mstatus` below `fs`, the
interrupt lines, and the counting. -/
class Modes (plat : Platform World) (R : Transition (Iss isa World) Exc) : Prop
    extends Moves R, Loads plat R where
  prv : ∀ s level, R s none { s with prv := level }
  lastPc : ∀ s, R s none { s with lastPc := s.pc }
  csr : ∀ s c value, Csr.isTrap c = true → R s none (s.setCsr c value)
  status : ∀ s value, (∀ i, 13 ≤ i →
    value.getLsbD i = (s.csrs.reg .mstatus).getLsbD i) → R s none (s.setCsr .mstatus value)
  events : Sat R (onWorld (Exec.call plat.irqEvents))
  instret : ∀ value, Sat R (setCounter .instret value)

/-! ## Preparing a handler -/

section Prepare

variable {R : Transition (Iss isa World) Exc} [Notes R]
  (describe : ∀ c value, c.describesTrap = true → Sat R (writeCsr c value))

include describe

/-- The program counter goes back to the instruction, and the registers of a level are filled. -/
theorem satAt_prepareTrap {s : Iss isa World} (back : SatAt R (setPc s.lastPc) s) (e : SimulationTrap) :
    SatAt R (prepareTrap e) s := by
  have mcause := fun value => describe .mcause value rfl
  have scause := fun value => describe .scause value rfl
  have ucause := fun value => describe .ucause value rfl
  have mtval := fun value => describe .mtval value rfl
  have stval := fun value => describe .stval value rfl
  have utval := fun value => describe .utval value rfl
  have value : ∀ mtval, Sat R (trapValue mtval : IssM isa World (Word isa)) := by
    intro mtval
    unfold trapValue
    infer_instance
  unfold prepareTrap
  refine SatAt.bind (.of_sat inferInstance) fun _ _ read => ?_
  cases read
  refine .bind back fun _ _ _ => .of_sat ?_
  repeat refine .bind inferInstance fun _ => ?_
  refine .ite (fun _ => ?_) fun _ => .ite (fun _ => ?_) fun _ => ?_
  · repeat refine .bind inferInstance fun _ => ?_
    infer_instance
  · repeat refine .bind inferInstance fun _ => ?_
    infer_instance
  · repeat refine .bind inferInstance fun _ => ?_
    infer_instance

theorem sat_prepareInterrupt {mode : PrivilegeLevel} (exists_ : KnownLevel mode)
    (pending : Word isa) : Sat R (prepareInterrupt mode pending) := by
  have mcause := fun value => describe .mcause value rfl
  have scause := fun value => describe .scause value rfl
  have ucause := fun value => describe .ucause value rfl
  unfold prepareInterrupt
  split
  · exact inferInstance
  · rcases exists_ with rfl | rfl | rfl
    · rw [if_neg (by decide), if_neg (by decide), if_pos rfl]
      infer_instance
    · rw [if_neg (by decide), if_pos rfl]
      infer_instance
    · rw [if_pos rfl]
      infer_instance

end Prepare

section Modes

variable (plat : Platform World) (R : Transition (Iss isa World) Exc) [modes : Modes plat R]

include modes

theorem sat_setPrv (level : PrivilegeLevel) : Sat R (setPrv level) :=
  .update fun s => modes.prv s level

theorem sat_writeTrapCsr {c : Csr} (own : c.isTrap = true) (value : Word isa) :
    Sat R (writeCsr c value) := .update fun s => modes.csr s c value own

theorem sat_writeStatus {len : Nat} {f : Field len} (low : f.lo + len ≤ 13) (value : BitVec len) :
    Sat R (writeField .mstatus f value) :=
  .update fun s => modes.status s _ fun i high => by
    have uncovered : ¬ f.Covers i := fun covered => by
      have := covered.2
      omega
    rw [Field.getLsbD_set, if_neg uncovered]

/-! ## Trap returns -/

theorem sat_execUret : Sat R (execUret : IssM isa World Unit) := by
  have uie := sat_writeStatus plat R (f := Mstatus.uie) (by decide)
  have upie := sat_writeStatus plat R (f := Mstatus.upie) (by decide)
  have prv := sat_setPrv plat R
  unfold execUret returnFromUserMode
  repeat refine .bind inferInstance fun _ => ?_
  infer_instance

theorem sat_execSret : Sat R (execSret : IssM isa World Unit) := by
  have sie := sat_writeStatus plat R (f := Mstatus.sie) (by decide)
  have spie := sat_writeStatus plat R (f := Mstatus.spie) (by decide)
  have spp := sat_writeStatus plat R (f := Mstatus.spp) (by decide)
  have prv := sat_setPrv plat R
  unfold execSret returnFromSupervisorMode
  repeat refine .bind inferInstance fun _ => ?_
  infer_instance

theorem sat_returnFromMachineMode : Sat R (returnFromMachineMode : IssM isa World Unit) := by
  have mie := sat_writeStatus plat R (f := Mstatus.mie) (by decide)
  have mpie := sat_writeStatus plat R (f := Mstatus.mpie) (by decide)
  have mpp := sat_writeStatus plat R (f := Mstatus.mpp) (by decide)
  have prv := sat_setPrv plat R
  unfold returnFromMachineMode
  repeat refine .bind inferInstance fun _ => ?_
  infer_instance

/-! ## Entering a handler -/

omit modes in
/-- A handler is entered after the reservation is given up. -/
theorem switchToTrapHandler_eq (mode : PrivilegeLevel) :
    (switchToTrapHandler plat mode : IssM isa World Unit) =
      (do releaseLrScReservation plat; enterHandler mode) := rfl

theorem sat_enterHandler {mode : PrivilegeLevel} (exists_ : KnownLevel mode) :
    Sat R (enterHandler mode) := by
  have mepc := sat_writeTrapCsr plat R (c := .mepc) rfl
  have sepc := sat_writeTrapCsr plat R (c := .sepc) rfl
  have uepc := sat_writeTrapCsr plat R (c := .uepc) rfl
  have mie := sat_writeStatus plat R (f := Mstatus.mie) (by decide)
  have mpie := sat_writeStatus plat R (f := Mstatus.mpie) (by decide)
  have mpp := sat_writeStatus plat R (f := Mstatus.mpp) (by decide)
  have sie := sat_writeStatus plat R (f := Mstatus.sie) (by decide)
  have spie := sat_writeStatus plat R (f := Mstatus.spie) (by decide)
  have spp := sat_writeStatus plat R (f := Mstatus.spp) (by decide)
  have uie := sat_writeStatus plat R (f := Mstatus.uie) (by decide)
  have upie := sat_writeStatus plat R (f := Mstatus.upie) (by decide)
  have prv := sat_setPrv plat R
  unfold enterHandler
  refine .bind inferInstance fun _ => .bind inferInstance fun _ => ?_
  rcases exists_ with rfl | rfl | rfl
  · rw [if_neg (by decide), if_neg (by decide), if_pos rfl]
    repeat refine .bind inferInstance fun _ => ?_
    infer_instance
  · rw [if_neg (by decide), if_pos rfl]
    repeat refine .bind inferInstance fun _ => ?_
    infer_instance
  · rw [if_pos rfl]
    repeat refine .bind inferInstance fun _ => ?_
    infer_instance

theorem sat_switchToTrapHandler {mode : PrivilegeLevel} (exists_ : KnownLevel mode) :
    Sat R (switchToTrapHandler plat mode) := by
  have enter := sat_enterHandler plat R exists_
  rw [switchToTrapHandler_eq]
  infer_instance

theorem sat_describeTrap (c : Csr) (value : Word isa) (own : c.describesTrap = true) :
    Sat R (writeCsr c value) := by
  apply sat_writeTrapCsr plat R
  cases c <;> first | rfl | cases own

theorem sat_prepareTrap (e : SimulationTrap) : Sat R (prepareTrap e : IssM isa World _) where
  holds _ := satAt_prepareTrap (sat_describeTrap plat R) (.of_sat inferInstance) e

omit modes in
/-- The mode a trap goes to exists. -/
theorem prepareTrap_known (e : SimulationTrap) :
    Exec.Returns KnownLevel (prepareTrap e : IssM isa World PrivilegeLevel) := by
  unfold prepareTrap
  refine .bind fun _ => .bind fun _ => .bind fun _ => .bind fun _ => .bind fun _ => ?_
  refine .ite ?_ (.ite ?_ ?_)
  · exact .bind fun _ => .bind fun _ => .bind fun _ => .pure (.inr (.inr rfl))
  · exact .bind fun _ => .bind fun _ => .bind fun _ => .pure (.inr (.inl rfl))
  · exact .bind fun _ => .bind fun _ => .bind fun _ => .bind fun _ => .pure (.inl rfl)

theorem sat_takeTrap (e : SimulationTrap) : Sat R (takeTrap plat (.trap e)) where
  holds _ :=
    SatAt.bind (.of_sat (sat_prepareTrap plat R e)) fun _ _ prepared =>
      .of_sat (sat_switchToTrapHandler plat R (prepareTrap_known e prepared))

theorem sat_pollInterrupts : Sat R (pollInterrupts plat) := by
  have mip := sat_writeTrapCsr plat R (c := .mip) rfl
  have events := modes.events
  unfold pollInterrupts
  infer_instance

/-- The counters of instructions and of cycles, and the steps that a reservation has left. -/
theorem sat_performance (counter : ∀ n, Sat R (setLrScCounter n))
    (cycles : ∀ s n, R s none { s with cycleCounter := n }) :
    Sat R (performanceAndSyncUpdate plat) := by
  have instret := modes.instret
  have counted : Sat R (Exec.update fun s : Iss isa World =>
      { s with cycleCounter := s.cycleCounter + instrCycles s.op }) := .update fun s => cycles s _
  unfold performanceAndSyncUpdate
  repeat refine .bind inferInstance fun _ => ?_
  infer_instance

/-- A transition that forgets the trap when the handler is entered. -/
theorem stepParts_of_modes [writes : Writes R] (performance : Sat R (performanceAndSyncUpdate plat))
    (forget : ∀ {s e t}, R s (some (.trap e)) t → R s none t) : StepParts plat R where
  poll := sat_pollInterrupts plat R
  lastPc := .update modes.lastPc
  check _ _ := inferInstance
  interrupt pending exists_ :=
    .bind (sat_prepareInterrupt (sat_describeTrap plat R) exists_ pending) fun _ =>
      sat_switchToTrapHandler plat R exists_
  trap step := Closed.trans (forget step) ((sat_takeTrap plat R _).holds _)
  zero := inferInstance
  status _ := inferInstance
  performance := performance

/-- The `try` block is judged by its instruction. -/
theorem satAt_execAndInterrupt {s : Iss isa World} (instruction : SatAt R (execStep plat) s) :
    SatAt R (execAndInterrupt plat) s := by
  refine .bind instruction fun _ _ _ => .bind (.of_sat (sat_pollInterrupts plat R)) fun _ t _ => ?_
  refine .bind (.of_sat inferInstance) fun pending _ read => ?_
  cases read
  split
  · rename_i mode pending found
    have known := computePendingInterrupts_known found
    exact .bind (.of_sat (sat_prepareInterrupt (sat_describeTrap plat R) known pending)) fun _ _ _ =>
      .of_sat (sat_switchToTrapHandler plat R known)
  · exact .of_sat inferInstance

/-! ## The instruction -/

variable [writes : Writes R] [stores : Stores plat R R] {instr : Instruction} {op : Mapping}
  {s : Iss isa World}

include writes stores

/-- Every instruction, once the CSR instructions, the FP instructions and the A extension are. -/
theorem satAt_exec_core (csr : op.isCsr = true → SatAt R (exec instr plat op) s)
    (float : op.isFloat = true → SatAt R (exec instr plat op) s)
    (atomic : op.isAtomic = true → SatAt R (exec instr plat op) s) : SatAt R (exec instr plat op) s := by
  cases swaps : op.isCsr with
  | true => exact csr swaps
  | false =>
    cases fp : op.isFloat with
    | true => exact float fp
    | false =>
      cases locks : op.isAtomic with
      | true => exact atomic locks
      | false =>
        cases ret : op.isReturn with
        | false =>
          have conditional : op.isSc = false := by
            cases op <;> first | rfl | cases locks
          have ordinary : op.isOrdinary = true := by simp [Mapping.isOrdinary, swaps, ret, conditional]
          cases jump : op.isJump with
          | true => exact .of_sat (.of_atomic (@atomic_exec_jump isa World instr plat R R _ _ op _ _ jump))
          | false =>
            exact .of_sat (.of_atomic (@atomic_exec_core isa World instr plat R R _ _ op _ _ _ ordinary
              locks fp jump))
        | true =>
          cases op
          case uret => exact .of_sat (sat_execUret plat R)
          case sret => exact .of_sat (sat_execSret plat R)
          case mret => exact .of_sat (sat_returnFromMachineMode plat R)
          all_goals cases ret

theorem satAt_exec [Locks plat R] (csr : op.isCsr = true → SatAt R (exec instr plat op) s)
    (float : op.isFloat = true → SatAt R (exec instr plat op) s) : SatAt R (exec instr plat op) s := by
  refine satAt_exec_core plat R csr float fun atomic => .of_sat ?_
  have fixed : op.isCsr = false ∧ op.isReturn = false ∧ op.isFloat = false := by
    cases op <;> first | exact ⟨rfl, rfl, rfl⟩ | cases atomic
  exact sat_exec_int instr plat fixed.1 fixed.2.1 fixed.2.2

end Modes

/-! ## The core and its world apart -/

/-- The changes of the core that traps and returns from them make. -/
class Inner (R : Transition (Iss isa World) Exc) : Prop extends Moves R where
  counter : ∀ s k value, k ≠ .cycle → R s none { s with csrs := s.csrs.setCounter k value }
  mode : ∀ s level pc, R s none { s with prv := level, lastPc := pc }
  csr : ∀ s c value, Csr.isTrap c = true → R s none (s.setCsr c value)
  status : ∀ s value, (∀ i, 13 ≤ i →
    value.getLsbD i = (s.csrs.reg .mstatus).getLsbD i) → R s none (s.setCsr .mstatus value)

/-- What the world does by itself, which is a `G`. -/
class Lifts (G : Transition World Exc) (R : Transition (Iss isa World) Exc) : Prop where
  world : ∀ s o w, G s.world o w → R s o (s.withWorld w)

class Over (G : Transition World Exc) (R : Transition (Iss isa World) Exc) : Prop
    extends Inner R, Lifts G R

/-- All that a core asks of the platform is a `G`, except for the bus lock. -/
class Governs (plat : Platform World) (G : Transition World Exc) : Prop where
  unlock : ∀ hart, Sat G (Exec.update (plat.unlock hart))
  load : ∀ hart addr n, Sat G (plat.rawLoadData hart addr n)
  store : ∀ hart addr n value, Sat G (plat.rawStoreData hart addr n value)
  proxy : ∀ e addr, Sat G (plat.dmiLoad e addr 4)
  mtime : Sat G (Exec.call plat.updateAndGetMtime)
  sleep : Sat G (Platform.await plat.waitForInterrupt)
  syscall : ∀ number a0 a1 a2 a3, Sat G (Exec.call (plat.executeSyscall number a0 a1 a2 a3))
  events : Sat G (Exec.call plat.irqEvents)

section Over

variable (plat : Platform World) (G : Transition World Exc) (R : Transition (Iss isa World) Exc)

theorem sat_onWorld [lifts : Lifts G R] {α : Type} {m : Exec World Exc α} (sat : Sat G m) :
    Sat R (onWorld m) where
  holds s := by
    cases ran : m.run s.world with
    | mk result w =>
      have step := sat.holds s.world
      rw [ran] at step
      rw [run_onWorld ran]
      exact lifts.world s _ w step

variable [governs : Governs plat G]

include governs

theorem sat_rawLoadData [Closed R] [Lifts G R] (addr : BitVec 64) (n : Nat) : Sat R (rawLoadData plat addr n) :=
  .bind inferInstance fun hart => sat_onWorld G R (governs.load hart addr n)

theorem sat_rawStoreData [Closed R] [Lifts G R] (addr : BitVec 64) (n : Nat)
    (value : BitVec (8 * n)) : Sat R (rawStoreData plat addr n value) :=
  .bind inferInstance fun hart => sat_onWorld G R (governs.store hart addr n value)

/-- An access is translated and then made. -/
theorem sat_v2p [Closed R] [Lifts G R] (type : MemoryAccessType) (va : BitVec 64) [Walks R type va] :
    Sat R (v2p plat va type) := by
  have load := sat_rawLoadData plat G R
  have store := sat_rawStoreData plat G R
  have walked : Sat R (translateVirtualToPhysicalAddr plat va type) :=
    sat_translate plat R fun vm => sat_walkLevels plat R vm
  unfold v2p
  infer_instance

theorem sat_loadInstr [Closed R] [Lifts G R] (va : BitVec 64) [walks : Walks R .fetch va] :
    Sat R (loadInstr plat va) := by
  have combined : Sat R (combinedLoadInstr plat va) :=
    .bind (sat_v2p plat G R .fetch va) fun paddr => sat_rawLoadData plat G R paddr 4
  have proxy : ∀ e, Sat R (proxyLoadInstr plat e va) := by
    intro e
    refine .bind inferInstance fun satp => .bind ?_ fun _ => sat_onWorld G R (governs.proxy e va)
    unfold assert
    exact .ite (fun _ => inferInstance) fun _ => .raise fun s =>
      walks.abort s .proxyWithVirtualMemory trivial
  unfold loadInstr
  split
  · exact proxy _
  · exact combined

section Notes

variable [notes : Notes R] [lifts : Lifts G R]

include notes lifts

theorem sat_atomicUnlock : Sat R (atomicUnlock plat) :=
  .bind inferInstance fun hart => sat_onWorld G R (governs.unlock hart)

theorem reads_of_lifts : Reads plat R where
  load := sat_rawLoadData plat G R
  translate _ _ := by
    have load := sat_rawLoadData plat G R
    have store := sat_rawStoreData plat G R
    exact sat_translate plat R fun vm => sat_walkLevels plat R vm
  proxy e pc := sat_onWorld G R (governs.proxy e _)

/-- What is left to show is that reservations are given up. -/
theorem loads_of_lifts (release : Sat R (releaseLrScReservation plat))
    (time : ∀ s value, R s none { s with csrs := s.csrs.setCounter .time value }) : Loads plat R where
  toReads := reads_of_lifts plat G R
  time := .bind (sat_onWorld G R governs.mtime) fun _ => .update fun s => time s _
  release := release
  sleep := sat_onWorld G R governs.sleep

theorem stores_of_lifts : Stores plat R R where
  store addr n value := .atomic_of_quiet (sat_rawStoreData plat G R addr n value)
  syscall _ _ _ _ _ := sat_onWorld G R (governs.syscall _ _ _ _ _)

/-! ### A transition that does not look at reservations -/

variable (reservation : ∀ s addr n, R s none { s with lrAddr := addr, lrScCounter := n })

include reservation

theorem sat_release : Sat R (releaseLrScReservation plat) :=
  .bind (.update fun s => reservation s s.lrAddr 0) fun _ => sat_atomicUnlock plat G R

theorem locks_of_lifts (lock : ∀ hart, Sat G (Platform.await (plat.lock hart))) : Locks plat R where
  lock := .bind inferInstance fun hart => sat_onWorld G R (lock hart)
  unlock := sat_atomicUnlock plat G R
  lrAddr addr := .update fun s => reservation s addr s.lrScCounter
  counter n := .update fun s => reservation s s.lrAddr n

end Notes

theorem modes_of_over [above : Over G R] (release : Sat R (releaseLrScReservation plat)) :
    Modes plat R where
  __ := above.toMoves
  __ := loads_of_lifts plat G R release fun s value => above.counter s .time value nofun
  prv s level := above.mode s level s.lastPc
  lastPc s := above.mode s s.prv s.pc
  csr := above.csr
  status := above.status
  events := sat_onWorld G R governs.events
  instret value := .update fun s => above.counter s .instret value nofun

end Over

/-! ## Transitions that do not look at the world -/

/-- A trap of the bus. -/
def IsRefusal : Exc → Prop
  | .trap e => e.reason = .loadPageFault ∨ e.reason = .storeAmoPageFault
  | _ => False

/-- An access returns, waits for ever, leaves its window, or is refused with a trap. -/
def Answers (_ : World) (o : Option Exc) (_ : World) : Prop :=
  ∀ e, o = some e → e = .blocked ∨ e = .abort .dmiRange ∨ IsRefusal e

instance : Closed (@Answers World) where
  refl _ := nofun
  trans _ second := second

section Answers

variable (plat : Platform World)

theorem answers_await (wait : World → Option World) : Sat Answers (Platform.await wait) where
  holds w := by
    cases answer : wait w with
    | none =>
      rw [Platform.run_await_none answer]
      exact fun _ same => .inl (Option.some.inj same).symm
    | some w' =>
      rw [Platform.run_await_some answer]
      exact nofun

theorem answers_dmiCheck (e : MemoryDMI) (addr : BitVec 64) (n : Nat) :
    Sat Answers (Platform.dmiCheck e addr n : Exec World Exc Unit) := by
  unfold Platform.dmiCheck
  exact .ite (fun _ => inferInstance) fun _ => .raise fun _ _ same =>
    .inr (.inl (Option.some.inj same).symm)

theorem answers_dmiLoad (e : MemoryDMI) (addr : BitVec 64) (n : Nat) :
    Sat Answers (plat.dmiLoad e addr n) :=
  .bind (answers_dmiCheck e addr n) fun _ => .call fun _ => nofun

theorem answers_rawLoadData (hart addr : BitVec 64) (n : Nat) :
    Sat Answers (plat.rawLoadData hart addr n) := by
  refine .bind (answers_await _) fun _ => ?_
  split
  · exact answers_dmiLoad plat _ _ _
  · refine ⟨fun w => ?_⟩
    cases answer : plat.busRead addr n w with
    | mk data w' =>
      cases data with
      | none =>
        rw [Platform.run_busLoad_none answer]
        exact fun _ same => .inr (.inr (by cases same; exact .inl rfl))
      | some data =>
        rw [Platform.run_busLoad_some answer]
        intro e same
        cases same

theorem answers_dmiStores (addr : BitVec 64) (n : Nat) (value : BitVec (8 * n))
    (ranges : List MemoryDMI) : Sat Answers (plat.dmiStores addr n value ranges) := by
  induction ranges with
  | nil => exact Sat.instPure ()
  | cons e ranges ih =>
    have stored : Sat Answers (plat.dmiStore e addr n value) :=
      .bind (answers_dmiCheck e addr n) fun _ => .update fun _ => nofun
    exact .bind inferInstance fun _ => ih

theorem answers_rawStoreData (hart addr : BitVec 64) (n : Nat) (value : BitVec (8 * n)) :
    Sat Answers (plat.rawStoreData hart addr n value) := by
  have asked : Sat Answers (plat.busStore addr n value) := by
    refine ⟨fun w => ?_⟩
    cases answer : plat.busWrite addr n value w with
    | mk accepted w' =>
      cases accepted with
      | false =>
        rw [Platform.run_busStore_false answer]
        exact fun _ same => .inr (.inr (by cases same; exact .inr rfl))
      | true =>
        rw [Platform.run_busStore_true answer]
        exact nofun
  refine .bind (answers_await _) fun _ => .bind (answers_dmiStores _ _ _ _ _) fun _ => ?_
  exact .bind inferInstance fun _ => .update fun _ => nofun

instance : Governs plat Answers where
  unlock _ := .update fun _ => nofun
  load := answers_rawLoadData plat
  store := answers_rawStoreData plat
  proxy e addr := answers_dmiLoad plat e addr 4
  mtime := .call fun _ => nofun
  sleep := answers_await _
  syscall _ _ _ _ _ := .call fun _ => nofun
  events := .call fun _ => nofun

end Answers

/-- What such a transition allows. -/
class Indifferent (R : Transition (Iss isa World) Exc) : Prop extends Inner R where
  reservation : ∀ s addr n, R s none { s with lrAddr := addr, lrScCounter := n }
  world : ∀ s w, R s none (s.withWorld w)
  stuck : ∀ s w e, e = .blocked ∨ e = .abort .dmiRange → R s (some e) (s.withWorld w)
  refused : ∀ s e w, e.reason ≠ .illegalInstr → R s (some (.trap e)) (s.withWorld w)

section Indifferent

variable (plat : Platform World) (R : Transition (Iss isa World) Exc) [easy : Indifferent R]

instance : Over Answers R where
  world s o w answers := by
    cases o with
    | none => exact easy.world s w
    | some e =>
      rcases answers e rfl with blocked | outside | refusal
      · exact easy.stuck s w e (.inl blocked)
      · exact easy.stuck s w e (.inr outside)
      · cases e with
        | trap e =>
          refine easy.refused s e w ?_
          rcases refusal with load | store
          · simp [load]
          · simp [store]
        | _ => exact refusal.elim

instance : Modes plat R := modes_of_over plat Answers R (sat_release plat Answers R easy.reservation)

instance : Locks plat R := locks_of_lifts plat Answers R easy.reservation fun _ => answers_await _

instance : Stores plat R R := stores_of_lifts plat Answers R

end Indifferent

end Iss

end RiscvVp
