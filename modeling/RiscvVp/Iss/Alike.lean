/-
# RiscvVp.Iss.Alike -- what an instruction cannot see

Two cores that differ in what the debugger has set, in the status and in CSRs that only store a
value are `Alike`.  No part of an instruction sees the difference, but for CSR instructions that
read such a register and returns from a trap.
-/
import RiscvVp.Iss.Step
import RiscvVp.Iss.CsrWrite
import RiscvVp.Lib.Blind

namespace RiscvVp

set_option autoImplicit false

open Lib

variable {isa : Isa} {World : Type}

/-- A register that the core keeps for software: only CSR instructions and returns read it. -/
def Csr.stored : Csr → Bool
  | .mscratch | .mepc | .mtval | .sscratch | .sepc | .stval | .uscratch | .uepc | .utval
  | .pmpaddr _ | .pmpcfg _ => true
  | _ => false

/-- What may be different: some of the stored registers, the status, and what the debugger has set,
which the second core has as given. -/
structure Veil (isa : Isa) where
  secret : Csr → Prop
  stored : ∀ c, secret c → c.stored = true
  status : CoreExecStatus → CoreExecStatus → Prop
  same : ∀ x, status x x
  breakpoints : List (Word isa)
  debugMode : Bool

namespace Iss

def Alike (v : Veil isa) (s s' : Iss isa World) : Prop :=
  ∃ status reg, v.status s.status status ∧ (∀ c, ¬ v.secret c → reg c = s.csrs.reg c) ∧
    s' = { s with
      status := status
      breakpoints := v.breakpoints
      debugMode := v.debugMode
      csrs := { s.csrs with reg := reg } }

theorem Alike.shown {v : Veil isa} {s s' : Iss isa World} (alike : Alike v s s') {c : Csr}
    (plain : c.stored = false) : s'.csrs.reg c = s.csrs.reg c := by
  obtain ⟨status, reg, may, same, rfl⟩ := alike
  refine same c fun secret => ?_
  rw [v.stored c secret] at plain
  cases plain

/-- A register that the core itself looks at. -/
class Inspected (c : Csr) : Prop where
  plain : c.stored = false

instance : Inspected .mstatus := ⟨rfl⟩
instance : Inspected .misa := ⟨rfl⟩
instance : Inspected .mhartid := ⟨rfl⟩
instance : Inspected .medeleg := ⟨rfl⟩
instance : Inspected .mideleg := ⟨rfl⟩
instance : Inspected .sedeleg := ⟨rfl⟩
instance : Inspected .sideleg := ⟨rfl⟩
instance : Inspected .mie := ⟨rfl⟩
instance : Inspected .mip := ⟨rfl⟩
instance : Inspected .mtvec := ⟨rfl⟩
instance : Inspected .stvec := ⟨rfl⟩
instance : Inspected .utvec := ⟨rfl⟩
instance : Inspected .mcause := ⟨rfl⟩
instance : Inspected .scause := ⟨rfl⟩
instance : Inspected .ucause := ⟨rfl⟩
instance : Inspected .mcounteren := ⟨rfl⟩
instance : Inspected .scounteren := ⟨rfl⟩
instance : Inspected .mcountinhibit := ⟨rfl⟩
instance : Inspected .satp := ⟨rfl⟩
instance : Inspected .fcsr := ⟨rfl⟩

section Blind

variable (v : Veil isa)

/-! ## Reads -/

/-- A read of a part that is the same. -/
theorem blind_read {α : Type} {f : Iss isa World → α}
    (sees : ∀ s status breakpoints debugMode reg, f { s with
      status := status, breakpoints := breakpoints, debugMode := debugMode,
      csrs := { s.csrs with reg := reg } } = f s) :
    Blind (Alike v) (Exec.read f : IssM isa World α) := by
  refine .read fun related => ?_
  obtain ⟨status, reg, -, -, rfl⟩ := related
  exact (sees _ _ _ _ _).symm

/-- A read that looks at plain registers too. -/
theorem blind_read_reg {α : Type} {f : Iss isa World → α}
    (sees : ∀ s status breakpoints debugMode reg, (∀ c : Csr, c.stored = false → reg c = s.csrs.reg c) →
      f { s with
        status := status, breakpoints := breakpoints, debugMode := debugMode,
        csrs := { s.csrs with reg := reg } } = f s) :
    Blind (Alike v) (Exec.read f : IssM isa World α) := by
  refine .read fun related => ?_
  obtain ⟨status, reg, may, same, rfl⟩ := related
  refine (sees _ _ _ _ _ fun c plain => same c fun secret => ?_).symm
  rw [v.stored c secret] at plain
  cases plain

instance (c : Csr) [given : Inspected c] : Blind (Alike v) (readCsr c : IssM isa World (Word isa)) :=
  blind_read_reg v fun _ _ _ _ _ same => same c given.plain

instance {len : Nat} (c : Csr) (f : Field len) [given : Inspected c] :
    Blind (Alike v) (readField c f : IssM isa World (BitVec len)) :=
  blind_read_reg v fun _ _ _ _ _ same => congrArg f.get (same c given.plain)

instance (field : BitVec 32) : Blind (Alike v) (readReg field : IssM isa World (Word isa)) :=
  blind_read v fun _ _ _ _ _ => rfl

instance (field : BitVec 32) : Blind (Alike v) (readF64 field : IssM isa World (BitVec 64)) :=
  blind_read v fun _ _ _ _ _ => rfl

instance (field : BitVec 32) : Blind (Alike v) (readF32 field : IssM isa World (BitVec 32)) :=
  blind_read v fun _ _ _ _ _ => rfl

instance (field : BitVec 32) : Blind (Alike v) (readU32 field : IssM isa World (BitVec 32)) :=
  blind_read v fun _ _ _ _ _ => rfl

instance : Blind (Alike v) (roundingMode : IssM isa World (BitVec 8)) :=
  blind_read v fun _ _ _ _ _ => rfl

instance : Blind (Alike v) (Exec.read softfloatExceptionFlags : IssM isa World (BitVec 8)) :=
  blind_read v fun _ _ _ _ _ => rfl

instance : Blind (Alike v) (Exec.read pc : IssM isa World (Word isa)) :=
  blind_read v fun _ _ _ _ _ => rfl

instance : Blind (Alike v) (Exec.read lastPc : IssM isa World (Word isa)) :=
  blind_read v fun _ _ _ _ _ => rfl

instance : Blind (Alike v) (Exec.read prv : IssM isa World PrivilegeLevel) :=
  blind_read v fun _ _ _ _ _ => rfl

instance : Blind (Alike v) (Exec.read sMode : IssM isa World Bool) :=
  blind_read v fun _ _ _ _ _ => rfl

instance : Blind (Alike v) (Exec.read uMode : IssM isa World Bool) :=
  blind_read v fun _ _ _ _ _ => rfl

instance : Blind (Alike v) (Exec.read instr : IssM isa World Instruction) :=
  blind_read v fun _ _ _ _ _ => rfl

instance : Blind (Alike v) (Exec.read op : IssM isa World Mapping) :=
  blind_read v fun _ _ _ _ _ => rfl

instance : Blind (Alike v) (Exec.read lrScCounter : IssM isa World Int) :=
  blind_read v fun _ _ _ _ _ => rfl

instance : Blind (Alike v) (Exec.read lrAddr : IssM isa World (BitVec 64)) :=
  blind_read v fun _ _ _ _ _ => rfl

instance : Blind (Alike v) (Exec.read ignoreWfi : IssM isa World Bool) :=
  blind_read v fun _ _ _ _ _ => rfl

instance : Blind (Alike v) (Exec.read shallExit : IssM isa World Bool) :=
  blind_read v fun _ _ _ _ _ => rfl

instance : Blind (Alike v) (Exec.read (fun s : Iss isa World => s.csrs.instret)
    : IssM isa World (BitVec 64)) := blind_read v fun _ _ _ _ _ => rfl

instance (mode : PrivilegeLevel) (type : MemoryAccessType) (vpn : BitVec 64) :
    Blind (Alike v) (Exec.read (tlbLookup mode type vpn) : IssM isa World TlbEntry) :=
  blind_read v fun _ _ _ _ _ => rfl

instance : Blind (Alike v) (Exec.read hartId : IssM isa World (BitVec 64)) :=
  blind_read_reg v fun _ _ _ _ _ same => congrArg (BitVec.setWidth 64) (same .mhartid rfl)

instance (f : Field 1) : Blind (Alike v) (Exec.read (hasExtension f) : IssM isa World Bool) :=
  blind_read_reg v fun _ _ _ _ _ same => congrArg (fun misa => f.get misa == 1#1) (same .misa rfl)

instance : Blind (Alike v) (Exec.read pcAlignmentMask : IssM isa World (Word isa)) :=
  blind_read_reg v fun _ _ _ _ _ same =>
    congrArg (fun misa => if Misa.extC.get misa == 1#1 then (~~~1 : Word isa) else ~~~3)
      (same .misa rfl)

instance (c : Csr) (n : Nat) [given : Inspected c] :
    Blind (Alike v) (Exec.read (isBitset c n) : IssM isa World Bool) :=
  blind_read_reg v fun _ _ _ _ _ same => by
    simp only [isBitset, same c given.plain]

instance (type : MemoryAccessType) :
    Blind (Alike v) (Exec.read (effectiveMode type) : IssM isa World PrivilegeLevel) :=
  blind_read_reg v fun _ _ _ _ _ same => by
    simp only [effectiveMode, same .mstatus rfl]

instance : Blind (Alike v) (Exec.read hasLocalPendingEnabledInterrupts : IssM isa World Bool) :=
  blind_read_reg v fun _ _ _ _ _ same => by
    simp only [hasLocalPendingEnabledInterrupts, same .mie rfl, same .mip rfl]

instance : Blind (Alike v) (Exec.read computePendingInterrupts
    : IssM isa World (Option (PrivilegeLevel × Word isa))) :=
  blind_read_reg v fun _ _ _ _ _ same => by
    simp only [computePendingInterrupts, same .mie rfl, same .mip rfl, same .mstatus rfl,
      same .mideleg rfl, same .sideleg rfl]

instance (plat : Platform World) : Blind (Alike v) (busIsLocked plat : IssM isa World Bool) :=
  blind_read_reg v fun _ _ _ _ _ same => by
    simp only [hartId, same .mhartid rfl]

/-! ## Updates -/

/-- An update outside the table, which does not look at what may differ. -/
theorem blind_update {f : Iss isa World → Iss isa World}
    (keeps : ∀ s status breakpoints debugMode reg, f { s with
      status := status, breakpoints := breakpoints, debugMode := debugMode,
      csrs := { s.csrs with reg := reg } } = { f s with
        status := status, breakpoints := breakpoints, debugMode := debugMode,
        csrs := { (f s).csrs with reg := reg } } ∧
      (f s).status = s.status ∧ (f s).csrs.reg = s.csrs.reg) :
    Blind (Alike v) (Exec.update f : IssM isa World Unit) := by
  refine .update fun {s s'} related => ?_
  obtain ⟨status, reg, may, same, rfl⟩ := related
  obtain ⟨moved, kept, table⟩ := keeps s status v.breakpoints v.debugMode reg
  rw [moved]
  exact ⟨status, reg, kept.symm ▸ may, fun c open_ => (same c open_).trans (congrFun table c).symm, rfl⟩

instance (field : BitVec 32) (value : Word isa) :
    Blind (Alike v) (writeReg field value : IssM isa World Unit) :=
  blind_update v fun _ _ _ _ _ => ⟨rfl, rfl, rfl⟩

instance (field : BitVec 32) (value : BitVec 64) :
    Blind (Alike v) (writeF64 field value : IssM isa World Unit) :=
  blind_update v fun _ _ _ _ _ => ⟨rfl, rfl, rfl⟩

instance (field value : BitVec 32) : Blind (Alike v) (writeF32 field value : IssM isa World Unit) :=
  inferInstanceAs (Blind (Alike v) (writeF64 field (boxF32 value)))

instance (pc : Word isa) : Blind (Alike v) (setPc pc : IssM isa World Unit) :=
  blind_update v fun _ _ _ _ _ => ⟨rfl, rfl, rfl⟩

instance (n : Int) : Blind (Alike v) (setLrScCounter n : IssM isa World Unit) :=
  blind_update v fun _ _ _ _ _ => ⟨rfl, rfl, rfl⟩

instance (prv : PrivilegeLevel) : Blind (Alike v) (setPrv prv : IssM isa World Unit) :=
  blind_update v fun _ _ _ _ _ => ⟨rfl, rfl, rfl⟩

instance (status : CoreExecStatus) : Blind (Alike v) (setStatus status : IssM isa World Unit) := by
  refine .update fun {s s'} related => ?_
  obtain ⟨_, reg, -, same, rfl⟩ := related
  exact ⟨status, reg, v.same status, same, rfl⟩

instance (op : Mapping) : Blind (Alike v) (setOp op : IssM isa World Unit) :=
  blind_update v fun _ _ _ _ _ => ⟨rfl, rfl, rfl⟩

instance (instr : Instruction) : Blind (Alike v) (setInstr instr : IssM isa World Unit) :=
  blind_update v fun _ _ _ _ _ => ⟨rfl, rfl, rfl⟩

instance (addr : BitVec 64) : Blind (Alike v) (setLrAddr addr : IssM isa World Unit) :=
  blind_update v fun _ _ _ _ _ => ⟨rfl, rfl, rfl⟩

instance : Blind (Alike v) (flushTlb : IssM isa World Unit) :=
  blind_update v fun _ _ _ _ _ => ⟨rfl, rfl, rfl⟩

instance (mode : PrivilegeLevel) (type : MemoryAccessType) (vpn : BitVec 64) (entry : TlbEntry) :
    Blind (Alike v) (tlbFill mode type vpn entry : IssM isa World Unit) :=
  blind_update v fun _ _ _ _ _ => ⟨rfl, rfl, rfl⟩

instance (k : Counter) (value : BitVec 64) :
    Blind (Alike v) (setCounter k value : IssM isa World Unit) :=
  blind_update v fun _ _ _ _ _ => by cases k <;> exact ⟨rfl, rfl, rfl⟩

/-- A register of the table gets a new value, from what it was and what is the same. -/
theorem Alike.setCsr {s s' : Iss isa World} (alike : Alike v s s') (c : Csr) {x x' : Word isa}
    (value : ¬ v.secret c → x' = x) : Alike v (s.setCsr c x) (s'.setCsr c x') := by
  obtain ⟨status, reg, may, same, rfl⟩ := alike
  refine ⟨status, fun d => if d = c then x' else reg d, may, fun d open_ => ?_, rfl⟩
  show (if d = c then x' else reg d) = if d = c then x else s.csrs.reg d
  split
  case isTrue here => exact value (here ▸ open_)
  case isFalse => exact same d open_

theorem Alike.reg {s s' : Iss isa World} (alike : Alike v s s') {c : Csr} (open_ : ¬ v.secret c) :
    s'.csrs.reg c = s.csrs.reg c := by
  obtain ⟨status, reg, may, same, rfl⟩ := alike
  exact same c open_

instance (c : Csr) (value : Word isa) : Blind (Alike v) (writeCsr c value : IssM isa World Unit) :=
  .update fun alike => alike.setCsr v c fun _ => rfl

instance {len : Nat} (c : Csr) (f : Field len) (value : BitVec len) :
    Blind (Alike v) (writeField c f value : IssM isa World Unit) :=
  .update fun alike => alike.setCsr v c fun open_ => congrArg (f.set value) (alike.reg v open_)

instance (c : Csr) (value mask : Word isa) :
    Blind (Alike v) (writeMasked c value mask : IssM isa World Unit) :=
  .update fun alike => alike.setCsr v c fun open_ =>
    congrArg (fun old => maskedWrite old value mask) (alike.reg v open_)

instance {α : Type} (m : Exec World Exc α) : Blind (Alike v) (onWorld m : IssM isa World α) := by
  refine .onPart m (fun alike => ?_) fun w alike => ?_
  · obtain ⟨status, reg, -, -, rfl⟩ := alike
    rfl
  · obtain ⟨status, reg, may, same, rfl⟩ := alike
    exact ⟨status, reg, may, same, rfl⟩

/-! ## Exceptions -/

instance {α : Type} (reason : ExceptionCode) (mtval : BitVec 64) :
    Blind (Alike v) (raiseTrap reason mtval : IssM isa World α) := Blind.instRaise _

instance {α : Type} (cause : Abort) : Blind (Alike v) (abort cause : IssM isa World α) :=
  Blind.instRaise _

instance {α : Type} : Blind (Alike v) (raiseIllegalInstruction : IssM isa World α) := by
  unfold raiseIllegalInstruction
  infer_instance

instance (condition : Prop) [Decidable condition] (cause : Abort) :
    Blind (Alike v) (assert condition cause : IssM isa World Unit) := by
  unfold assert
  infer_instance

instance (ext : Word isa) : Blind (Alike v) (requireIsa ext : IssM isa World Unit) := by
  have misa : Blind (Alike v) (readCsr .misa : IssM isa World (Word isa)) := inferInstance
  cases isa with
  | rv32 =>
    unfold requireIsa
    infer_instance
  | rv64 => exact Blind.instPure ()

instance {α : Type} (m : IssM isa World α) [Blind (Alike v) m] : Blind (Alike v) (onlyRv32 m) := by
  unfold onlyRv32
  split
  · assumption
  · infer_instance

instance (m : IssM isa World Unit) [Blind (Alike v) m] : Blind (Alike v) (onlyRv64 m) := by
  unfold onlyRv64
  split
  · infer_instance
  · assumption

instance : Blind (Alike v) (trapCheckPcAlignment : IssM isa World Unit) := by
  unfold trapCheckPcAlignment
  infer_instance

instance (alignment : Nat) (isLoad : Bool) (addr : BitVec 64) :
    Blind (Alike v) (trapCheckAddrAlignment alignment isLoad addr : IssM isa World Unit) := by
  unfold trapCheckAddrAlignment
  infer_instance

instance {α : Type} (type : MemoryAccessType) (va : BitVec 64) :
    Blind (Alike v) (pageFault type va : IssM isa World α) := by
  unfold pageFault
  split <;> infer_instance

/-! ## Memory -/

section Memory

variable (plat : Platform World)

instance (addr : BitVec 64) (n : Nat) :
    Blind (Alike v) (rawLoadData plat addr n : IssM isa World (BitVec (8 * n))) := by
  unfold rawLoadData
  infer_instance

instance (addr : BitVec 64) (n : Nat) (value : BitVec (8 * n)) :
    Blind (Alike v) (rawStoreData plat addr n value : IssM isa World Unit) := by
  unfold rawStoreData
  infer_instance

instance (vm : VmInfo) (addr : BitVec 64) : Blind (Alike v) (loadPte plat vm addr : IssM isa World Pte) := by
  have narrow : Blind (Alike v) (mmuLoadPte32 plat addr : IssM isa World Pte) := by
    unfold mmuLoadPte32
    infer_instance
  have wide : Blind (Alike v) (mmuLoadPte64 plat addr : IssM isa World Pte) :=
    inferInstanceAs (Blind (Alike v) (rawLoadData plat addr 8))
  unfold loadPte
  infer_instance

instance (vm : VmInfo) (va : BitVec 64) (type : MemoryAccessType) (sMode sum mxr : Bool) (i : Nat)
    (base : BitVec 64) :
    Blind (Alike v) (walkLevels plat vm va type sMode sum mxr i base : IssM isa World (BitVec 64)) := by
  induction i generalizing base with
  | zero =>
    unfold walkLevels
    infer_instance
  | succ i ih =>
    unfold walkLevels mmuStorePte32
    infer_instance

instance (va : BitVec 64) (type : MemoryAccessType) (mode : PrivilegeLevel) :
    Blind (Alike v) (walk plat va type mode : IssM isa World (BitVec 64)) := by
  unfold walk decodeVmInfo
  infer_instance

instance (va : BitVec 64) (type : MemoryAccessType) :
    Blind (Alike v) (translateVirtualToPhysicalAddr plat va type : IssM isa World (BitVec 64)) := by
  unfold translateVirtualToPhysicalAddr
  infer_instance

instance (va : BitVec 64) (type : MemoryAccessType) :
    Blind (Alike v) (v2p plat va type : IssM isa World (BitVec 64)) := by
  unfold v2p
  infer_instance

instance : Blind (Alike v) (memFlushTlb plat : IssM isa World Unit) := by
  unfold memFlushTlb
  infer_instance

instance (addr : BitVec 64) (n : Nat) :
    Blind (Alike v) (loadData plat addr n : IssM isa World (BitVec (8 * n))) := by
  unfold loadData
  infer_instance

instance (addr : BitVec 64) (n : Nat) (value : BitVec (8 * n)) :
    Blind (Alike v) (storeData plat addr n value : IssM isa World Unit) := by
  unfold storeData
  infer_instance

instance (pc : BitVec 64) : Blind (Alike v) (loadInstr plat pc : IssM isa World (BitVec 32)) := by
  have four : ∀ addr, Blind (Alike v) (rawLoadData plat addr 4 : IssM isa World (BitVec 32)) :=
    fun addr => inferInstanceAs (Blind (Alike v) (rawLoadData plat addr 4))
  unfold loadInstr proxyLoadInstr combinedLoadInstr
  split <;> infer_instance

instance : Blind (Alike v) (atomicUnlock plat : IssM isa World Unit) := by
  unfold atomicUnlock
  have unlocks : ∀ hart, Blind (Alike v) (onWorld (Exec.update (plat.unlock hart)) : IssM isa World Unit) :=
    fun _ => inferInstance
  infer_instance

instance : Blind (Alike v) (busLock plat : IssM isa World Unit) := by
  unfold busLock
  infer_instance

instance (addr : BitVec 64) (n : Nat) :
    Blind (Alike v) (atomicLoadData plat addr n : IssM isa World (BitVec (8 * n))) := by
  unfold atomicLoadData
  infer_instance

instance (addr : BitVec 64) (n : Nat) (value : BitVec (8 * n)) :
    Blind (Alike v) (atomicStoreData plat addr n value : IssM isa World Unit) := by
  unfold atomicStoreData
  infer_instance

instance (addr : BitVec 64) (n : Nat) :
    Blind (Alike v) (atomicLoadReservedData plat addr n : IssM isa World (BitVec (8 * n))) := by
  unfold atomicLoadReservedData
  infer_instance

instance (addr : BitVec 64) (n : Nat) (value : BitVec (8 * n)) :
    Blind (Alike v) (atomicStoreConditionalData plat addr n value : IssM isa World Bool) := by
  unfold atomicStoreConditionalData
  infer_instance

instance : Blind (Alike v) (releaseLrScReservation plat : IssM isa World Unit) := by
  unfold releaseLrScReservation
  infer_instance

end Memory

end Blind

end Iss

end RiscvVp
