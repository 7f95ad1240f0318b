/-
# RiscvVp.Iss.Handlers -- entering a trap handler and returning from it

`switch_to_trap_handler` and `return_from_trap_handler` in closed form.  Each level has a
program counter, an enable bit, a stacked enable bit and a stacked level of its own, kept in
one status word: entering a handler pushes on the stack of its level, the return pops, and
the stacks of the other levels are not touched.
-/
import RiscvVp.Iss.CsrWrite
import RiscvVp.Iss.Modes

namespace RiscvVp.Iss

set_option autoImplicit false

open Lib Transition

variable {isa : Isa} {World : Type}

/-- The registers, and the bits of `mstatus`, of the trap handler of a level. -/
structure TrapRegs where
  epc : Csr
  cause : Csr
  tval : Csr
  tvec : Csr
  ie : Field 1
  pie : Field 1

def trapRegs (level : PrivilegeLevel) : TrapRegs :=
  if level = machineMode then ⟨.mepc, .mcause, .mtval, .mtvec, Mstatus.mie, Mstatus.mpie⟩
  else if level = supervisorMode then ⟨.sepc, .scause, .stval, .stvec, Mstatus.sie, Mstatus.spie⟩
  else ⟨.uepc, .ucause, .utval, .utvec, Mstatus.uie, Mstatus.upie⟩

/-- The level that a return goes back to; user mode is only entered from user mode. -/
def previous (level : PrivilegeLevel) (mstatus : Word isa) : PrivilegeLevel :=
  if level = machineMode then Mstatus.mpp.get mstatus
  else if level = supervisorMode then (Mstatus.spp.get mstatus).setWidth 2
  else userMode

/-! ## The status word -/

/-- `mstatus` when the handler of `level` has been entered from `pp`. -/
def pushed (level pp : PrivilegeLevel) (m : Word isa) : Word isa :=
  if level = machineMode then
    Mstatus.mpp.set pp (Mstatus.mie.set 0#1 (Mstatus.mpie.set (Mstatus.mie.get m) m))
  else if level = supervisorMode then
    Mstatus.spp.set (pp.setWidth 1) (Mstatus.sie.set 0#1 (Mstatus.spie.set (Mstatus.sie.get m) m))
  else Mstatus.uie.set 0#1 (Mstatus.upie.set (Mstatus.uie.get m) m)

/-- `mstatus` after the return; `user` says that there is a user mode. -/
def popped (level : PrivilegeLevel) (user : Bool) (m : Word isa) : Word isa :=
  if level = machineMode then
    Mstatus.mpp.set (if user then userMode else machineMode)
      (Mstatus.mpie.set 1#1 (Mstatus.mie.set (Mstatus.mpie.get m) m))
  else if level = supervisorMode then
    Mstatus.spp.set (if user then 0#1 else 1#1)
      (Mstatus.spie.set 1#1 (Mstatus.sie.set (Mstatus.spie.get m) m))
  else Mstatus.upie.set 1#1 (Mstatus.uie.set (Mstatus.upie.get m) m)

section Status

variable {level other pp : PrivilegeLevel} {user : Bool} {m : Word isa}

theorem fits_of_low {len : Nat} {f : Field len} (low : f.lo + len ≤ 13) : f.Fits isa.xlen := by
  have wide : 13 ≤ isa.xlen := by cases isa <;> decide
  exact Nat.le_trans low wide

theorem get_set_low {len : Nat} {f : Field len} (low : f.lo + len ≤ 13) (v : BitVec len) :
    f.get (f.set v m) = v := Field.get_set (fits_of_low low) v m

theorem ie_pushed (known : KnownLevel level) : (trapRegs level).ie.get (pushed level pp m) = 0#1 := by
  rcases known with rfl | rfl | rfl
  · show Mstatus.uie.get (Mstatus.uie.set 0#1 _) = 0#1
    rw [get_set_low (by decide)]
  · show Mstatus.sie.get (Mstatus.spp.set _ (Mstatus.sie.set 0#1 _)) = 0#1
    rw [Field.get_set_of_disjoint (by decide), get_set_low (by decide)]
  · show Mstatus.mie.get (Mstatus.mpp.set _ (Mstatus.mie.set 0#1 _)) = 0#1
    rw [Field.get_set_of_disjoint (by decide), get_set_low (by decide)]

theorem pie_pushed (known : KnownLevel level) :
    (trapRegs level).pie.get (pushed level pp m) = (trapRegs level).ie.get m := by
  rcases known with rfl | rfl | rfl
  · show Mstatus.upie.get (Mstatus.uie.set _ (Mstatus.upie.set _ m)) = _
    rw [Field.get_set_of_disjoint (by decide), get_set_low (by decide)]
    rfl
  · show Mstatus.spie.get (Mstatus.spp.set _ (Mstatus.sie.set _ (Mstatus.spie.set _ m))) = _
    rw [Field.get_set_of_disjoint (by decide), Field.get_set_of_disjoint (by decide),
      get_set_low (by decide)]
    rfl
  · show Mstatus.mpie.get (Mstatus.mpp.set _ (Mstatus.mie.set _ (Mstatus.mpie.set _ m))) = _
    rw [Field.get_set_of_disjoint (by decide), Field.get_set_of_disjoint (by decide),
      get_set_low (by decide)]
    rfl

/-- The stacked level has room for every level that the handler is entered from. -/
theorem previous_pushed (known : KnownLevel level) (below : pp ≤ level) :
    previous level (pushed level pp m) = pp := by
  rcases known with rfl | rfl | rfl
  · show userMode = pp
    revert pp
    decide
  · show (Mstatus.spp.get (Mstatus.spp.set (pp.setWidth 1) _)).setWidth 2 = pp
    rw [get_set_low (by decide)]
    revert pp
    decide
  · exact get_set_low (by decide) _

/-- The stack of another level. -/
structure SameStack (other : PrivilegeLevel) (m m' : Word isa) : Prop where
  ie : (trapRegs other).ie.get m' = (trapRegs other).ie.get m
  pie : (trapRegs other).pie.get m' = (trapRegs other).pie.get m
  previous : previous other m' = previous other m

/-- No bit of the field is on the stack of `other`. -/
def OffStack {len : Nat} (other : PrivilegeLevel) (f : Field len) : Prop :=
  (trapRegs other).ie.Disjoint f ∧ (trapRegs other).pie.Disjoint f ∧
    (other = machineMode → Mstatus.mpp.Disjoint f) ∧
    (other = supervisorMode → Mstatus.spp.Disjoint f)

instance {len : Nat} (other : PrivilegeLevel) (f : Field len) : Decidable (OffStack other f) :=
  inferInstanceAs (Decidable (_ ∧ _))

theorem SameStack.set {len : Nat} {f : Field len} {v : BitVec len} {m' : Word isa}
    (same : SameStack other m m') (off : OffStack other f) : SameStack other m (f.set v m') where
  ie := (Field.get_set_of_disjoint off.1 v m').trans same.ie
  pie := (Field.get_set_of_disjoint off.2.1 v m').trans same.pie
  previous := by
    rw [← same.previous]
    unfold Iss.previous
    split
    case isTrue machine => rw [Field.get_set_of_disjoint (off.2.2.1 machine)]
    split
    case isTrue supervisor => rw [Field.get_set_of_disjoint (off.2.2.2 supervisor)]
    case isFalse => rfl

theorem sameStack_pushed (known : KnownLevel level) (exists_ : KnownLevel other)
    (apart : other ≠ level) : SameStack other m (pushed level pp m) := by
  have start : SameStack other m m := ⟨rfl, rfl, rfl⟩
  rcases known with rfl | rfl | rfl
  · have off : OffStack other Mstatus.upie ∧ OffStack other Mstatus.uie := by
      rcases exists_ with rfl | rfl | rfl <;> first | contradiction | decide
    exact (start.set off.1).set off.2
  · have off : OffStack other Mstatus.spie ∧ OffStack other Mstatus.sie ∧ OffStack other Mstatus.spp := by
      rcases exists_ with rfl | rfl | rfl <;> first | contradiction | decide
    exact ((start.set off.1).set off.2.1).set off.2.2
  · have off : OffStack other Mstatus.mpie ∧ OffStack other Mstatus.mie ∧ OffStack other Mstatus.mpp := by
      rcases exists_ with rfl | rfl | rfl <;> first | contradiction | decide
    exact ((start.set off.1).set off.2.1).set off.2.2

theorem sameStack_popped (known : KnownLevel level) (exists_ : KnownLevel other)
    (apart : other ≠ level) : SameStack other m (popped level user m) := by
  have start : SameStack other m m := ⟨rfl, rfl, rfl⟩
  rcases known with rfl | rfl | rfl
  · have off : OffStack other Mstatus.uie ∧ OffStack other Mstatus.upie := by
      rcases exists_ with rfl | rfl | rfl <;> first | contradiction | decide
    exact (start.set off.1).set off.2
  · have off : OffStack other Mstatus.sie ∧ OffStack other Mstatus.spie ∧ OffStack other Mstatus.spp := by
      rcases exists_ with rfl | rfl | rfl <;> first | contradiction | decide
    exact ((start.set off.1).set off.2.1).set off.2.2
  · have off : OffStack other Mstatus.mie ∧ OffStack other Mstatus.mpie ∧ OffStack other Mstatus.mpp := by
      rcases exists_ with rfl | rfl | rfl <;> first | contradiction | decide
    exact ((start.set off.1).set off.2.1).set off.2.2

theorem ie_popped (known : KnownLevel level) :
    (trapRegs level).ie.get (popped level user m) = (trapRegs level).pie.get m := by
  rcases known with rfl | rfl | rfl
  · show Mstatus.uie.get (Mstatus.upie.set _ (Mstatus.uie.set _ m)) = _
    rw [Field.get_set_of_disjoint (by decide), get_set_low (by decide)]
    rfl
  · show Mstatus.sie.get (Mstatus.spp.set _ (Mstatus.spie.set _ (Mstatus.sie.set _ m))) = _
    rw [Field.get_set_of_disjoint (by decide), Field.get_set_of_disjoint (by decide),
      get_set_low (by decide)]
    rfl
  · show Mstatus.mie.get (Mstatus.mpp.set _ (Mstatus.mpie.set _ (Mstatus.mie.set _ m))) = _
    rw [Field.get_set_of_disjoint (by decide), Field.get_set_of_disjoint (by decide),
      get_set_low (by decide)]
    rfl

end Status

/-! ## The two functions -/

/-- The core when the handler of `level` has been entered. -/
def entered (plat : Platform World) (level : PrivilegeLevel) (s : Iss isa World) : Iss isa World :=
  { (s.setCsr (trapRegs level).epc s.pc).setCsr .mstatus
      (pushed level s.prv (s.csrs.reg .mstatus)) with
    prv := level
    pc := handlerAddress (s.csrs.reg (trapRegs level).tvec) (s.csrs.reg (trapRegs level).cause)
    lrScCounter := 0
    world := plat.unlock s.hartId s.world }

/-- The core when it has returned from there. -/
def returned (level : PrivilegeLevel) (s : Iss isa World) : Iss isa World :=
  { s.setCsr .mstatus (popped level (s.hasExtension Misa.extU) (s.csrs.reg .mstatus)) with
    prv := previous level (s.csrs.reg .mstatus)
    pc := s.csrs.reg (trapRegs level).epc }

/-- `return_from_trap_handler`. -/
def returnFromTrapHandler (returnMode : PrivilegeLevel) : IssM isa World Unit :=
  if returnMode = machineMode then returnFromMachineMode
  else if returnMode = supervisorMode then returnFromSupervisorMode
  else if returnMode = userMode then returnFromUserMode
  else abort .unknownPrivilegeLevel

section Closed

variable {level : PrivilegeLevel} (s : Iss isa World)

theorem run_switchToTrapHandler (plat : Platform World) (known : KnownLevel level) :
    (switchToTrapHandler plat level).run s = (.ok (), entered plat level s) := by
  have released : (releaseLrScReservation plat).run s =
      (.ok (), { s with lrScCounter := 0, world := plat.unlock s.hartId s.world }) := rfl
  unfold switchToTrapHandler
  rw [Exec.run_bind_ok released]
  unfold setPrv
  rw [Exec.run_read_bind, Exec.run_update_bind]
  rcases known with rfl | rfl | rfl
  · rw [if_neg (by decide), if_neg (by decide), if_pos rfl]
    simp only [Exec.run_read_bind, run_writeCsr_bind, run_readField_bind, run_writeField_bind,
      run_readCsr_bind, setCsr_setCsr]
    rfl
  · rw [if_neg (by decide), if_pos rfl]
    simp only [Exec.run_read_bind, run_writeCsr_bind, run_readField_bind, run_writeField_bind,
      run_readCsr_bind, setCsr_setCsr]
    rfl
  · rw [if_pos rfl]
    simp only [Exec.run_read_bind, run_writeCsr_bind, run_readField_bind, run_writeField_bind,
      run_readCsr_bind, setCsr_setCsr]
    rfl

theorem setCsr_setPc (c : Csr) (value pc : Word isa) :
    ({ s with pc := pc } : Iss isa World).setCsr c value = { s.setCsr c value with pc := pc } := rfl

theorem run_returnFromTrapHandler (known : KnownLevel level) :
    (returnFromTrapHandler level).run s = (.ok (), returned level s) := by
  unfold returnFromTrapHandler
  rcases known with rfl | rfl | rfl
  · rw [if_neg (by decide), if_neg (by decide), if_pos rfl]
    unfold returnFromUserMode setPrv
    simp only [Exec.run_update_bind, run_readField_bind, run_writeField_bind, run_readCsr_bind,
      setCsr_setCsr]
    rfl
  · rw [if_neg (by decide), if_pos rfl]
    unfold returnFromSupervisorMode setPrv setPc writeField
    simp only [Exec.run_read_bind, Exec.run_update_bind, run_readField_bind, run_readCsr_bind,
      Exec.run_update, setCsr_setPc, setCsr_setCsr]
    rfl
  · rw [if_pos rfl]
    unfold returnFromMachineMode setPrv setPc writeField
    simp only [Exec.run_read_bind, Exec.run_update_bind, run_readField_bind, run_readCsr_bind,
      Exec.run_update, setCsr_setPc, setCsr_setCsr]
    rfl

end Closed

end RiscvVp.Iss
