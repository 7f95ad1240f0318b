/-
# RiscvVp.Iss.Step -- traps, interrupts and `run_step`

Entering a trap handler, the interrupt lines and the step the runners repeat.  The
events on the interrupt lines are other SystemC processes writing `mip` whenever the
core waits; nothing between two looks at `mip` depends on when in between they happen,
so a step takes them in at its start and after the instruction.
-/
import RiscvVp.Iss.Exec

namespace RiscvVp.Iss

set_option autoImplicit false

open Lib

variable {isa : Isa} {World : Type}

/-! ## Interrupt lines -/

namespace Mip

def usip : Field 1 := ⟨0⟩
def ssip : Field 1 := ⟨1⟩
def msip : Field 1 := ⟨3⟩
def utip : Field 1 := ⟨4⟩
def stip : Field 1 := ⟨5⟩
def mtip : Field 1 := ⟨7⟩
def ueip : Field 1 := ⟨8⟩
def seip : Field 1 := ⟨9⟩
def meip : Field 1 := ⟨11⟩

end Mip

/-- The switch of `trigger_external_interrupt` and `clear_external_interrupt`. -/
def writeExternal (level : PrivilegeLevel) (status : Bool) (mip : Word isa) : Word isa :=
  if level = userMode then Mip.ueip.set (BitVec.ofBool status) mip
  else if level = supervisorMode then Mip.seip.set (BitVec.ofBool status) mip
  else if level = machineMode then Mip.meip.set (BitVec.ofBool status) mip
  else mip

def IrqEvent.apply : IrqEvent → Word isa → Word isa
  | .triggerExternal level => writeExternal level true
  | .clearExternal level => writeExternal level false
  | .timer status => Mip.mtip.set (BitVec.ofBool status)
  | .software status => Mip.msip.set (BitVec.ofBool status)

variable (plat : Platform World)

def pollInterrupts : IssM isa World Unit := do
  let events ← onWorld (Exec.call plat.irqEvents)
  writeCsr .mip (events.foldl (fun mip e => IrqEvent.apply e mip) (← readCsr .mip))

/-! ## Entering a handler -/

/-- The `interrupt` and `exception_code` fields together are the whole register. -/
def causeValue (interrupt : Bool) (code : Nat) : Word isa :=
  ((BitVec.ofBool interrupt).setWidth isa.xlen <<< (isa.xlen - 1)) ||| BitVec.ofNat isa.xlen code

/-- `boost::lexical_cast<uint32_t>` on the RV32 core. -/
def trapValue (mtval : BitVec 64) : IssM isa World (Word isa) := do
  assert (isa = .rv32 → mtval.toNat < 2 ^ 32) .lexicalCast
  return mtval.setWidth isa.xlen

def delegated (reason : ExceptionCode) (delegation : Word isa) : Bool :=
  (1#32 <<< reason.code).setWidth isa.xlen &&& delegation != 0

def prepareTrap (e : SimulationTrap) : IssM isa World PrivilegeLevel := do
  setPc (← Exec.read lastPc)
  let prv ← Exec.read prv
  let medeleg ← readCsr .medeleg
  let sedeleg ← readCsr .sedeleg
  if prv = machineMode ∨ delegated e.reason medeleg = false then
    writeCsr .mcause (causeValue false e.reason.code)
    writeCsr .mtval (← trapValue e.mtval)
    return machineMode
  else if prv = supervisorMode ∨ delegated e.reason sedeleg = false then
    writeCsr .scause (causeValue false e.reason.code)
    writeCsr .stval (← trapValue e.mtval)
    return supervisorMode
  else
    assert (prv = userMode) .trapDelegation
    writeCsr .ucause (causeValue false e.reason.code)
    writeCsr .utval (← trapValue e.mtval)
    return userMode

/-- The interrupt that is taken among the pending ones. -/
def selectInterrupt (pending : Word isa) : Option InterruptCode :=
  if Mip.meip.get pending = 1#1 then some .mExternal
  else if Mip.msip.get pending = 1#1 then some .mSoftware
  else if Mip.mtip.get pending = 1#1 then some .mTimer
  else if Mip.seip.get pending = 1#1 then some .sExternal
  else if Mip.ssip.get pending = 1#1 then some .sSoftware
  else if Mip.stip.get pending = 1#1 then some .sTimer
  else if Mip.ueip.get pending = 1#1 then some .uExternal
  else if Mip.usip.get pending = 1#1 then some .uSoftware
  else if Mip.utip.get pending = 1#1 then some .uTimer
  else none

def prepareInterrupt (targetMode : PrivilegeLevel) (pending : Word isa) : IssM isa World Unit := do
  match selectInterrupt pending with
  | none => abort .noPendingInterrupt
  | some exc =>
      if targetMode = machineMode then writeCsr .mcause (causeValue true exc.code)
      else if targetMode = supervisorMode then writeCsr .scause (causeValue true exc.code)
      else if targetMode = userMode then writeCsr .ucause (causeValue true exc.code)
      else abort .unknownPrivilegeLevel

/-- `compute_pending_interrupts`, with `none` for `NoneMode`. -/
def computePendingInterrupts (s : Iss isa World) : Option (PrivilegeLevel × Word isa) :=
  let pending := s.csrs.reg .mie &&& s.csrs.reg .mip
  let mstatus := s.csrs.reg .mstatus
  let mPending := pending &&& ~~~s.csrs.reg .mideleg
  let delegated := pending &&& s.csrs.reg .mideleg
  let sPending := delegated &&& ~~~s.csrs.reg .sideleg
  let uPending := delegated &&& s.csrs.reg .sideleg
  if pending = 0 then none
  else if mPending ≠ 0 ∧
      (s.prv < machineMode ∨ s.prv = machineMode ∧ Mstatus.mie.get mstatus = 1#1) then
    some (machineMode, mPending)
  else if sPending ≠ 0 ∧
      (s.prv < supervisorMode ∨ s.prv = supervisorMode ∧ Mstatus.sie.get mstatus = 1#1) then
    some (supervisorMode, sPending)
  else if uPending ≠ 0 ∧ s.prv = userMode ∧ Mstatus.uie.get mstatus = 1#1 then
    some (userMode, uPending)
  else none

/-- The address `xtvec` sends the core to, given `xcause`. -/
def handlerAddress (tvec cause : Word isa) : Word isa :=
  let mode : Field 2 := ⟨0⟩
  let base := tvec &&& ~~~3
  if cause.msb ∧ mode.get tvec = 1#2 then base + 4 * (cause &&& ~~~((1 : Word isa) <<< (isa.xlen - 1)))
  else base

def switchToTrapHandler (targetMode : PrivilegeLevel) : IssM isa World Unit := do
  releaseLrScReservation plat
  let pp ← Exec.read prv
  setPrv targetMode
  if targetMode = machineMode then
    writeCsr .mepc (← Exec.read pc)
    writeField .mstatus Mstatus.mpie (← readField .mstatus Mstatus.mie)
    writeField .mstatus Mstatus.mie 0#1
    writeField .mstatus Mstatus.mpp pp
    setPc (handlerAddress (← readCsr .mtvec) (← readCsr .mcause))
  else if targetMode = supervisorMode then
    writeCsr .sepc (← Exec.read pc)
    writeField .mstatus Mstatus.spie (← readField .mstatus Mstatus.sie)
    writeField .mstatus Mstatus.sie 0#1
    writeField .mstatus Mstatus.spp (pp.setWidth 1)
    setPc (handlerAddress (← readCsr .stvec) (← readCsr .scause))
  else if targetMode = userMode then
    writeCsr .uepc (← Exec.read pc)
    writeField .mstatus Mstatus.upie (← readField .mstatus Mstatus.uie)
    writeField .mstatus Mstatus.uie 0#1
    setPc (handlerAddress (← readCsr .utvec) (← readCsr .ucause))
  else abort .unknownPrivilegeLevel

/-! ## The step -/

/-- `instr_cycles`, in units of `cycle_time`. -/
def instrCycles : Mapping → Nat
  | .lb | .lbu | .lh | .lhu | .lw | .sb | .sh | .sw => 4
  | .mul | .mulh | .mulhu | .mulhsu | .div | .divu | .rem | .remu => 8
  | _ => 1

namespace Mcountinhibit

def CY : Field 1 := ⟨0⟩
def IR : Field 1 := ⟨2⟩

end Mcountinhibit

def performanceAndSyncUpdate : IssM isa World Unit := do
  Exec.when ((← readField .mcountinhibit Mcountinhibit.IR) = 0#1) do
    setCounter .instret ((← Exec.read fun s => s.csrs.instret) + 1)
  let counter ← Exec.read lrScCounter
  Exec.when (counter ≠ 0) do
    setLrScCounter (counter - 1)
    if counter - 1 = 0 then releaseLrScReservation plat
  if (← readField .mcountinhibit Mcountinhibit.CY) = 0#1 then
    Exec.update fun s => { s with cycleCounter := s.cycleCounter + instrCycles s.op }

/-- The body of the `try` block. -/
def execAndInterrupt : IssM isa World Unit := do
  execStep plat
  pollInterrupts plat
  match ← Exec.read computePendingInterrupts with
  | some (targetMode, pending) =>
      prepareInterrupt targetMode pending
      switchToTrapHandler plat targetMode
  | none => pure ()

/-- The `catch` clause. -/
def takeTrap : Exc → IssM isa World Unit
  | .trap e => do switchToTrapHandler plat (← prepareTrap e)
  | e => Exec.raise e

def runStep : IssM isa World Unit := do
  let s ← Exec.read fun s => s
  assert (s.regs 0 = 0) .zeroRegister
  if s.debugMode && s.pc ∈ s.breakpoints then setStatus .hitBreakpoint
  else
    pollInterrupts plat
    Exec.update fun s => { s with lastPc := s.pc }
    (execAndInterrupt plat).tryCatch (takeTrap plat)
    writeReg 0 0
    Exec.when (← Exec.read shallExit) (setStatus .terminated)
    performanceAndSyncUpdate plat

end RiscvVp.Iss
