/-
# RiscvVp.Iss.Effects -- the parts that an instruction is made of

A transition that allows the small things (`Checks`), what a load does (`Reads`, `Loads`), taking
and giving back the bus lock (`Locks`) is one of every function up to the point where an
instruction takes effect: the rules for `do` blocks put the functions together.  `Still`
is such a transition; its walk is one because what it stores is the entry it has just
loaded, with flags added.
-/
import RiscvVp.Iss.Frame

namespace RiscvVp

set_option autoImplicit false

open Lib Transition

variable {isa : Isa} {World : Type}

/-- Where the simulator gives up: over a privilege level or a translation mode only when
there is no such thing, over the program counter or the FP flags only when they are wrong. -/
def Abort.Explained (s : Iss isa World) : Abort → Prop
  | .unknownPrivilegeLevel | .mmuMode => ¬ s.KnownLevels
  | .unknownSatpMode => ∀ mode ∈ [Satp.bare, Satp.sv32, Satp.sv39, Satp.sv48, Satp.sv57, Satp.sv64],
      Satp.mode (s.csrs.reg .satp) ≠ mode
  | .misalignedInstruction => s.pc &&& ~~~s.pcAlignmentMask ≠ 0
  | .oddProgramCounter => s.pc &&& 1 ≠ 0
  | .softfloatFlags => s.softfloatExceptionFlags ≠ 0
  | _ => True

/-- An assertion about something else. -/
class OrdinaryAbort (cause : Abort) : Prop where
  explained : ∀ {isa : Isa} {World : Type} (s : Iss isa World), cause.Explained s

instance : OrdinaryAbort .zeroRegister := ⟨fun _ => trivial⟩
instance : OrdinaryAbort .decode := ⟨fun _ => trivial⟩
instance : OrdinaryAbort .missingMmu := ⟨fun _ => trivial⟩
instance : OrdinaryAbort .proxyWithVirtualMemory := ⟨fun _ => trivial⟩
instance : OrdinaryAbort .busNotLocked := ⟨fun _ => trivial⟩
instance : OrdinaryAbort .lexicalCast := ⟨fun _ => trivial⟩

/-- A trap that is not over the instruction itself. -/
class OrdinaryTrap (reason : ExceptionCode) : Prop where
  legal : reason ≠ .illegalInstr

instance : OrdinaryTrap .instrAddrMisaligned := ⟨nofun⟩
instance : OrdinaryTrap .ecallUMode := ⟨nofun⟩
instance : OrdinaryTrap .ecallSMode := ⟨nofun⟩
instance : OrdinaryTrap .ecallMMode := ⟨nofun⟩
instance : OrdinaryTrap .instrPageFault := ⟨nofun⟩
instance : OrdinaryTrap .loadPageFault := ⟨nofun⟩
instance : OrdinaryTrap .storeAmoPageFault := ⟨nofun⟩

instance (isLoad : Bool) :
    OrdinaryTrap (if isLoad then .loadAddrMisaligned else .storeAmoAddrMisaligned) :=
  ⟨by cases isLoad <;> decide⟩

namespace Iss

variable {α : Type}

/-! ## Transitions that allow the parts -/

/-- Traps with a value of the width of the core, assertions, and changes of what only the
simulator keeps.  The value of an illegal instruction is the instruction register. -/
class Notes (R : Transition (Iss isa World) Exc) : Prop extends Closed R where
  trap : ∀ s reason (value : Word isa),
    (reason = .illegalInstr → value.setWidth 64 = s.instr.setWidth 64) →
    R s (some (.trap ⟨reason, value.setWidth 64⟩)) s
  /-- A handler may rename a trap before it passes it on. -/
  rethrow : ∀ {s t e} reason op instr, (reason = .illegalInstr → e.reason = .illegalInstr) →
    R s (some (.trap e)) t → R s (some (.trap ⟨reason, e.mtval⟩)) { t with op := op, instr := instr }
  abort : ∀ s (cause : Abort), cause.Explained s → R s (some (.abort cause)) s
  scratch : ∀ s status tlb rm, R s none { s with
    status := status, tlb := tlb, softfloatRoundingMode := rm }
  cycle : Sat R updateCycle

/-- ... and moves of the program counter. -/
class Moves (R : Transition (Iss isa World) Exc) : Prop extends Notes R where
  move : ∀ s pc, R s none { s with pc := pc }

/-- ... and what the decoder finds. -/
class Issues (R : Transition (Iss isa World) Exc) : Prop extends Notes R where
  issue : ∀ s op instr, R s none { s with op := op, instr := instr }

class Checks (R : Transition (Iss isa World) Exc) : Prop extends Moves R, Issues R

class Reads (plat : Platform World) (R : Transition (Iss isa World) Exc) : Prop extends Notes R where
  load : ∀ addr n, Sat R (rawLoadData plat addr n)
  translate : ∀ (va : Word isa) type,
    Sat R (translateVirtualToPhysicalAddr plat (va.setWidth 64) type)
  proxy : ∀ e (pc : Word isa), Sat R (onWorld (plat.dmiLoad e (pc.setWidth 64) 4))

/-- Reads of memory, and what else an instruction asks of the platform. -/
class Loads (plat : Platform World) (R : Transition (Iss isa World) Exc) : Prop extends Reads plat R where
  time : Sat R (updateTime plat)
  release : Sat R (releaseLrScReservation plat)
  sleep : Sat R (onWorld (Platform.await plat.waitForInterrupt))

class Locks (plat : Platform World) (R : Transition (Iss isa World) Exc) : Prop where
  lock : Sat R (busLock plat)
  unlock : Sat R (atomicUnlock plat)
  lrAddr : ∀ addr, Sat R (setLrAddr addr)
  counter : ∀ n, Sat R (setLrScCounter n)

/-! ## Reading -/

section Read

variable (R : Transition (Iss isa World) Exc) [Closed R]

instance (c : Csr) : Sat R (readCsr c) := inferInstanceAs (Sat R (Exec.read _))

instance {len : Nat} (c : Csr) (f : Field len) : Sat R (readField c f) :=
  inferInstanceAs (Sat R (Exec.read _))

instance (field : BitVec 32) : Sat R (readReg field) := inferInstanceAs (Sat R (Exec.read _))

instance (field : BitVec 32) : Sat R (readF64 field) := inferInstanceAs (Sat R (Exec.read _))

instance (field : BitVec 32) : Sat R (readF32 field) := inferInstanceAs (Sat R (Exec.read _))

instance (field : BitVec 32) : Sat R (readU32 field) := inferInstanceAs (Sat R (Exec.read _))

instance : Sat R roundingMode := inferInstanceAs (Sat R (Exec.read _))

instance (cell : Cell) : Sat R (readCell cell) := inferInstanceAs (Sat R (Exec.read _))

instance (c : Csr) (mask : Word isa) : Sat R (readMasked c mask) := by
  unfold readMasked
  infer_instance

instance (plat : Platform World) : Sat R (busIsLocked plat) :=
  inferInstanceAs (Sat R (Exec.read _))

instance (instr : Instruction) : Sat R (zimmWord instr) := by
  unfold zimmWord
  infer_instance

end Read

/-! ## Checks -/

/-- `REQUIRE_ISA` lets the extension pass. -/
def Extends (ext : Word isa) (s : Iss isa World) : Prop :=
  isa = .rv32 → s.csrs.reg .misa &&& ext ≠ 0

theorem run_requireIsa_missing {ext : Word isa} {s : Iss isa World} (missing : ¬ Extends ext s) :
    (requireIsa ext).run s = (.error (.trap ⟨.illegalInstr, s.instr.setWidth 64⟩), s) := by
  unfold Extends at missing
  push Not at missing
  obtain ⟨rfl, absent⟩ := missing
  have unfolded : (requireIsa ext).run s = ((if s.csrs.reg .misa &&& ext = 0 then
      raiseIllegalInstruction else pure () : IssM .rv32 World Unit)).run s := rfl
  rw [unfolded, if_pos absent]
  rfl

theorem run_requireIsa_present {ext : Word isa} {s : Iss isa World} (present : Extends ext s) :
    (requireIsa ext).run s = (.ok (), s) := by
  cases isa with
  | rv64 => rfl
  | rv32 =>
    have unfolded : (requireIsa ext).run s = ((if s.csrs.reg .misa &&& ext = 0 then
        raiseIllegalInstruction else pure () : IssM .rv32 World Unit)).run s := rfl
    rw [unfolded, if_neg (present rfl)]
    rfl

theorem run_requireIsa (ext : Word isa) (s : Iss isa World) :
    (requireIsa ext).run s = (.ok (), s) ∨
      (requireIsa ext).run s = (raiseIllegalInstruction : IssM isa World Unit).run s := by
  by_cases present : Extends ext s
  · exact .inl (run_requireIsa_present present)
  · exact .inr (run_requireIsa_missing present)

section Only

variable (R : Transition (Iss isa World) Exc)

instance [Closed R] (ext : Word isa)
    [illegal : Sat R (raiseIllegalInstruction : IssM isa World Unit)] : Sat R (requireIsa ext) where
  holds s := by
    rcases run_requireIsa ext s with present | missing
    · rw [present]
      exact Closed.refl s
    · rw [missing]
      exact illegal.holds s

instance (m : IssM isa World Unit) [Sat R m] [Sat R (raiseIllegalInstruction : IssM isa World Unit)] :
    Sat R (onlyRv64 m) := by
  unfold onlyRv64
  split <;> assumption

instance (m : IssM isa World α) [Sat R m] [Sat R (raiseIllegalInstruction : IssM isa World α)] :
    Sat R (onlyRv32 m) := by
  unfold onlyRv32
  split <;> assumption

end Only

section Checks

variable (R : Transition (Iss isa World) Exc) [Notes R]

/-- A word of the program fits in a register. -/
theorem instr_setWidth (isa : Isa) (instr : Instruction) :
    instr.setWidth 64 = (instr.setWidth isa.xlen).setWidth 64 := by
  cases isa
  · rw [BitVec.setWidth_eq]
  · rw [BitVec.setWidth_eq]

instance (reason : ExceptionCode) [given : OrdinaryTrap reason] (value : Word isa) :
    Sat R (raiseTrap reason (value.setWidth 64) : IssM isa World α) :=
  .raise fun s => Notes.trap s reason value fun illegal => absurd illegal given.legal

instance (reason : ExceptionCode) [OrdinaryTrap reason] (addr : Word isa) :
    Sat R (raiseTrap reason (dataAddr addr) : IssM isa World α) :=
  inferInstanceAs (Sat R (raiseTrap reason (addr.setWidth 64)))

instance : Sat R (raiseIllegalInstruction : IssM isa World α) where
  holds s := by
    have raised := Notes.trap (R := R) s .illegalInstr (s.instr.setWidth isa.xlen)
    rw [← instr_setWidth] at raised
    exact raised fun _ => rfl

instance (cause : Abort) [given : OrdinaryAbort cause] : Sat R (abort cause : IssM isa World α) :=
  .raise fun s => Notes.abort s cause (given.explained s)

instance (condition : Prop) [Decidable condition] (cause : Abort) [OrdinaryAbort cause] :
    Sat R (assert condition cause : IssM isa World Unit) := by
  unfold assert
  infer_instance

/-- An assertion whose failure is explained. -/
theorem satAt_assert {condition : Prop} [Decidable condition] {cause : Abort} {s : Iss isa World}
    (explains : ¬ condition → cause.Explained s) : SatAt R (assert condition cause) s := by
  unfold assert
  exact .ite (fun _ => .of_sat inferInstance) fun fails => Notes.abort s cause (explains fails)

instance : Sat R (trapCheckPcAlignment : IssM isa World Unit) where
  holds s := by
    unfold trapCheckPcAlignment
    refine SatAt.bind (.of_sat inferInstance) fun pc _ read => ?_
    cases read
    exact .bind (satAt_assert R id) fun _ _ _ => .of_sat inferInstance

instance (alignment : Nat) (isLoad : Bool) (addr : Word isa) :
    Sat R (trapCheckAddrAlignment alignment isLoad (dataAddr addr) : IssM isa World Unit) := by
  unfold trapCheckAddrAlignment
  infer_instance

instance (type : MemoryAccessType) (va : Word isa) :
    Sat R (pageFault type (va.setWidth 64) : IssM isa World α) := by
  unfold pageFault
  split <;> infer_instance

/-! ## Small state changes -/

instance (status : CoreExecStatus) : Sat R (setStatus status : IssM isa World Unit) :=
  .update fun s => Notes.scratch s status s.tlb s.softfloatRoundingMode

instance : Sat R (flushTlb : IssM isa World Unit) :=
  .update fun s => Notes.scratch s s.status _ s.softfloatRoundingMode

instance (mode : PrivilegeLevel) (type : MemoryAccessType) (vpn : BitVec 64) (entry : TlbEntry) :
    Sat R (tlbFill mode type vpn entry : IssM isa World Unit) :=
  .update fun s => Notes.scratch s s.status _ s.softfloatRoundingMode

instance : Sat R (updateCycle : IssM isa World Unit) := Notes.cycle

/-! ## Before an FP instruction -/

instance : Sat R (fpRequireNotOff : IssM isa World Unit) := by
  unfold fpRequireNotOff
  infer_instance

instance : Sat R (fpPrepareInstr : IssM isa World Unit) where
  holds s := by
    unfold fpPrepareInstr
    refine SatAt.bind (.of_sat inferInstance) fun flags _ read => ?_
    cases read
    exact .bind (satAt_assert R id) fun _ _ _ => .of_sat inferInstance

instance (instr : Instruction) : Sat R (fpSetupRm instr : IssM isa World Unit) := by
  have selected : ∀ rm, Sat R
      (Exec.update fun s : Iss isa World => { s with softfloatRoundingMode := rm }) :=
    fun rm => .update fun s => Notes.scratch s s.status s.tlb rm
  unfold fpSetupRm
  infer_instance

end Checks

instance (R : Transition (Iss isa World) Exc) [Moves R] (pc : Word isa) :
    Sat R (setPc pc : IssM isa World Unit) :=
  .update fun s => Moves.move s pc

section Issues

variable (R : Transition (Iss isa World) Exc) [Issues R]

instance (op : Mapping) : Sat R (setOp op : IssM isa World Unit) :=
  .update fun s => Issues.issue s op s.instr

instance (instr : Instruction) : Sat R (setInstr instr : IssM isa World Unit) :=
  .update fun s => Issues.issue s s.op instr

end Issues

/-! ## Translation -/

/-- What a translation does besides accessing the tables: it ends in the page fault of the
access or in an assertion, or it fills the TLB. -/
class Walks (R : Transition (Iss isa World) Exc) (type : MemoryAccessType) (va : BitVec 64) :
    Prop where
  fault : ∀ s, R s (some (.trap ⟨pageFaultCode type, va⟩)) s
  abort : ∀ s (cause : Abort), cause.Explained s → R s (some (.abort cause)) s
  fill : ∀ s tlb, R s none { s with tlb := tlb }

instance (R : Transition (Iss isa World) Exc) [Notes R] (type : MemoryAccessType) (va : Word isa) :
    Walks R type (va.setWidth 64) where
  fault s := Notes.trap s (pageFaultCode type) va (by cases type <;> nofun)
  abort := Notes.abort
  fill s tlb := Notes.scratch s s.status tlb s.softfloatRoundingMode

section Translate

variable (plat : Platform World) (R : Transition (Iss isa World) Exc) {type : MemoryAccessType}
  {va : BitVec 64} [walks : Walks R type va] [Closed R]

omit [Closed R] in
theorem sat_pageFault : Sat R (pageFault type va : IssM isa World α) where
  holds s := by
    rw [run_pageFault]
    exact walks.fault s

include walks in
theorem sat_decodeVmInfo {mode : PrivilegeLevel} (low : LowMode mode) {s : Iss isa World}
    (paged : Satp.mode (s.csrs.reg .satp) ≠ Satp.bare) : SatAt R (decodeVmInfo mode) s := by
  have below : mode ≤ supervisorMode := by rcases low with rfl | rfl <;> decide
  unfold SatAt decodeVmInfo
  rw [run_assert_bind s below, run_readCsr_bind]
  split
  case isTrue => exact Closed.refl s
  split
  case isTrue => exact Closed.refl s
  split
  case isTrue => exact Closed.refl s
  split
  case isTrue => exact Closed.refl s
  split
  case isTrue => exact Closed.refl s
  refine walks.abort s .unknownSatpMode fun mode among => ?_
  simp only [List.mem_cons, List.not_mem_nil, or_false] at among
  rcases among with rfl | rfl | rfl | rfl | rfl | rfl <;> assumption

theorem sat_walk {mode : PrivilegeLevel} (low : LowMode mode) {s : Iss isa World}
    (levels : ∀ vm sMode sum mxr i base, Sat R (walkLevels plat vm va type sMode sum mxr i base))
    (paged : Satp.mode (s.csrs.reg .satp) ≠ Satp.bare) : SatAt R (walk plat va type mode) s := by
  unfold walk
  refine .bind (.of_sat inferInstance) fun sum _ read => ?_
  cases read
  refine .bind (.of_sat inferInstance) fun mxr _ read => ?_
  cases read
  have decoded : SatAt R (decodeVmInfo mode) s := @sat_decodeVmInfo _ _ R _ _ walks _ _ low _ paged
  exact .bind decoded fun vm t _ => .of_sat (levels _ _ _ _ _ _)

/-- The mode of an access is a level that exists. -/
theorem knownLevel_effectiveMode {s : Iss isa World} (known : KnownLevels s)
    (type : MemoryAccessType) : KnownLevel (effectiveMode type s) := by
  unfold effectiveMode
  split
  · exact known.2
  · exact known.1

/-- A translation is judged by the loop of its walk. -/
theorem sat_translate
    (levels : ∀ vm sMode sum mxr i base, Sat R (walkLevels plat vm va type sMode sum mxr i base)) :
    Sat R (translateVirtualToPhysicalAddr plat va type) where
  holds s := by
    by_cases bare : Satp.mode (s.csrs.reg .satp) = Satp.bare
    · unfold translateVirtualToPhysicalAddr
      rw [run_readCsr_bind, Exec.run_read_bind, if_pos bare]
      exact Closed.refl s
    by_cases machine : effectiveMode type s = machineMode
    · rw [run_translate_machine bare machine]
      exact Closed.refl s
    by_cases low : LowMode (effectiveMode type s)
    · by_cases hit : (tlbLookup (effectiveMode type s) type (va >>> 12) s).vpn = va >>> 12
      · rw [run_translate_hit bare rfl low hit]
        exact Closed.refl s
      · rw [run_translate_miss bare rfl low hit]
        exact SatAt.bind (sat_walk plat R low levels bare) fun paddr _ _ =>
          .bind (.of_sat (.update fun s => walks.fill s _)) fun _ _ _ => .of_sat inferInstance
    · rw [run_translate_unknown bare machine low]
      apply walks.abort
      intro known
      rcases knownLevel_effectiveMode known type with user | supervisor | top
      · exact low (.inl user)
      · exact low (.inr supervisor)
      · exact machine top

/-- A walk loads entries, and stores one. -/
theorem sat_walkLevels [load : ∀ addr n, Sat R (rawLoadData plat addr n)]
    [store : ∀ addr n value, Sat R (rawStoreData plat addr n value)] (vm : VmInfo)
    (sMode sum mxr : Bool) (i : Nat) (base : BitVec 64) :
    Sat R (walkLevels plat vm va type sMode sum mxr i base) := by
  have fault : Sat R (pageFault type va : IssM isa World (BitVec 64)) := sat_pageFault R
  have entry : ∀ addr, Sat R (loadPte plat vm addr) := by
    intro addr
    have narrow : Sat R (mmuLoadPte32 plat addr : IssM isa World Pte) := by
      unfold mmuLoadPte32
      infer_instance
    have wide : Sat R (mmuLoadPte64 plat addr : IssM isa World Pte) := load addr 8
    unfold loadPte
    infer_instance
  have update : ∀ addr value, Sat R (mmuStorePte32 plat addr value) := fun addr => store addr 4
  induction i generalizing base with
  | zero =>
    unfold walkLevels
    infer_instance
  | succ i ih =>
    unfold walkLevels
    infer_instance

end Translate

/-! ## Memory -/

section Reads

variable (plat : Platform World) (R : Transition (Iss isa World) Exc) [loads : Reads plat R]

instance (addr : BitVec 64) (n : Nat) : Sat R (rawLoadData plat addr n) := loads.load addr n

instance (va : Word isa) (type : MemoryAccessType) : Sat R (v2p plat (va.setWidth 64) type) := by
  have := loads.translate va type
  unfold v2p
  infer_instance

instance (addr : Word isa) (type : MemoryAccessType) : Sat R (v2p plat (dataAddr addr) type) :=
  inferInstanceAs (Sat R (v2p plat (addr.setWidth 64) type))

instance : Sat R (memFlushTlb plat) := by
  unfold memFlushTlb
  infer_instance

instance (addr : Word isa) (n : Nat) : Sat R (loadData plat (dataAddr addr) n) := by
  unfold loadData
  infer_instance

instance (pc : Word isa) : Sat R (loadInstr plat (pc.setWidth 64)) := by
  have proxy : ∀ e, Sat R (onWorld (plat.dmiLoad e (pc.setWidth 64) 4) : IssM isa World (BitVec 32)) :=
    fun e => loads.proxy e pc
  have combined : ∀ addr, Sat R (rawLoadData plat addr 4 : IssM isa World (BitVec 32)) :=
    fun addr => loads.load addr 4
  unfold loadInstr proxyLoadInstr combinedLoadInstr
  split <;> infer_instance

/-! ## Fetch and decode -/

instance [Issues R] : Sat R (fetch plat) := by
  have guarded : ∀ pc : Word isa, Sat R ((loadInstr plat (pc.setWidth 64)).tryCatch fetchFault) := by
    refine fun pc => ⟨fun s => SatAt.tryCatch (.of_sat inferInstance) fun e t thrown => ?_⟩
    cases e with
    | trap e =>
      have passed := Notes.rethrow e.reason .undef 0 id thrown
      exact passed
    | abort cause => exact thrown
    | blocked => exact thrown
  unfold fetch
  infer_instance

instance (R : Transition (Iss isa World) Exc) [Checks R] : Sat R decode := by
  unfold decode
  refine .bind inferInstance fun instr => .bind inferInstance fun pc => .ite (fun _ => ?_) fun _ =>
    inferInstance
  split
  · exact .bind inferInstance fun _ => inferInstance
  · infer_instance

end Reads

section Loads

variable (plat : Platform World) (R : Transition (Iss isa World) Exc) [loads : Loads plat R]

instance : Sat R (releaseLrScReservation plat) := loads.release

instance : Sat R (updateTime plat) := loads.time

instance : Sat R (onWorld (Platform.await plat.waitForInterrupt)) := loads.sleep

/-! ## Reads of a CSR -/

section Access

variable (R : Transition (Iss isa World) Exc) [Notes R]

instance (addr : BitVec 12) (isWrite : Bool) : Sat R (isInvalidCsrAccess addr isWrite) := by
  unfold isInvalidCsrAccess
  infer_instance

instance (addr : BitVec 12) : Sat R (validateCsrCounterReadAccessRights addr) := by
  unfold validateCsrCounterReadAccessRights
  infer_instance

instance (a : CsrAddr) : Sat R (defaultRead a) := by
  unfold defaultRead
  split <;> infer_instance

end Access

instance (a : CsrAddr) : Sat R (getNamedCsr plat a) := by
  unfold getNamedCsr
  split <;> infer_instance

instance (addr : BitVec 12) : Sat R (getCsrValue plat addr) := by
  unfold getCsrValue
  split <;> infer_instance

/-! ## The bus lock -/

variable [locks : Locks plat R]

instance : Sat R (busLock plat) := locks.lock

instance : Sat R (atomicUnlock plat) := locks.unlock

instance (addr : Word isa) (n : Nat) : Sat R (atomicLoadData plat (dataAddr addr) n) := by
  unfold atomicLoadData
  infer_instance

instance (addr : Word isa) (n : Nat) : Sat R (atomicLoadReservedData plat (dataAddr addr) n) := by
  have := locks.lrAddr (dataAddr addr)
  unfold atomicLoadReservedData
  infer_instance

end Loads

/-! ## Nothing but flags of page-table entries is written -/

section Still

variable (plat : Platform World)

instance : Sat (Still plat) (setLrScCounter 0 : IssM isa World Unit) :=
  still_update plat fun _ => ⟨rfl, rfl, rfl, rfl, rfl, rfl⟩

instance (k : Counter) (value : BitVec 64) :
    Sat (Still plat) (setCounter k value : IssM isa World Unit) :=
  still_update plat fun _ => ⟨rfl, rfl, rfl, rfl, by cases k <;> rfl, rfl⟩

instance : Checks (@Still isa World plat) where
  trap _ _ _ _ := ⟨rfl, rfl, rfl, rfl, rfl, .refl _, fun _ same bad => by cases same; exact bad.elim⟩
  rethrow _ _ _ _ still :=
    { still with levels := fun _ same bad => by cases same; exact bad.elim }
  abort s cause explained := ⟨rfl, rfl, rfl, rfl, rfl, .refl _, fun _ same bad => by
    cases same
    cases cause <;> first | exact explained | exact bad.elim⟩
  scratch _ _ _ _ := ⟨rfl, rfl, rfl, rfl, rfl, .refl _, nofun⟩
  issue _ _ _ := ⟨rfl, rfl, rfl, rfl, rfl, .refl _, nofun⟩
  move _ _ := ⟨rfl, rfl, rfl, rfl, rfl, .refl _, nofun⟩
  cycle := by
    unfold updateCycle
    infer_instance

/-- An entry is loaded in one raw access. -/
theorem loadPte_raw (vm : VmInfo) (addr : BitVec 64) {s t : Iss isa World} {pte : Pte}
    (ran : (loadPte plat vm addr).run s = (.ok pte, t)) :
    ∃ n, (n = 4 ∨ n = 8) ∧ ∃ data : BitVec (8 * n), pte = data.setWidth 64 ∧ ∃ w, t = s.withWorld w ∧
      (plat.rawLoadData s.hartId addr n).run s.world = (.ok data, w) := by
  have raw : ∀ {n : Nat} {data : BitVec (8 * n)} {u : Iss isa World},
      (rawLoadData plat addr n).run s = (.ok data, u) → ∃ w, u = s.withWorld w ∧
        (plat.rawLoadData s.hartId addr n).run s.world = (.ok data, w) := by
    intro n data u loaded
    cases accessed : (plat.rawLoadData s.hartId addr n).run s.world with
    | mk result w =>
      have here : (rawLoadData plat addr n).run s = (result, s.withWorld w) :=
        run_onWorld accessed
      rw [here] at loaded
      cases loaded
      exact ⟨w, rfl, rfl⟩
  unfold loadPte at ran
  split at ran
  · obtain ⟨data, u, loaded, rest⟩ := Exec.run_bind_eq_ok.mp ran
    cases rest
    exact ⟨4, .inl rfl, data, rfl, raw loaded⟩
  · exact ⟨8, .inr rfl, pte, (BitVec.setWidth_eq pte).symm, raw ran⟩

theorem still_rawLoadData (addr : BitVec 64) (n : Nat) :
    Sat (Still plat) (rawLoadData plat addr n : IssM isa World (BitVec (8 * n))) := by
  unfold rawLoadData
  infer_instance

theorem still_loadPte (vm : VmInfo) (addr : BitVec 64) :
    Sat (Still plat) (loadPte plat vm addr : IssM isa World Pte) := by
  have raw := @still_rawLoadData isa World plat addr
  have narrow : Sat (Still plat) (mmuLoadPte32 plat addr : IssM isa World Pte) := by
    unfold mmuLoadPte32
    infer_instance
  have wide : Sat (Still plat) (mmuLoadPte64 plat addr : IssM isa World Pte) := raw 8
  unfold loadPte
  infer_instance

instance (addr : BitVec 64) (n : Nat) (value : BitVec (8 * n)) :
    Sat (Plain plat) (rawStoreData plat addr n value : IssM isa World Unit) := by
  unfold rawStoreData
  infer_instance

/-- The update of an entry that was just loaded. -/
theorem still_updatePte {vm : VmInfo} {addr : BitVec 64} {s t : Iss isa World} {pte : Pte}
    (loaded : (loadPte plat vm addr).run s = (.ok pte, t)) (type : MemoryAccessType) :
    Still plat s
      (failure ((mmuStorePte32 plat addr ((pte ||| adBits type).setWidth 32)).run t).1)
      ((mmuStorePte32 plat addr ((pte ||| adBits type).setWidth 32)).run t).2 := by
  obtain ⟨n, size, data, rfl, w, rfl, access⟩ := loadPte_raw plat vm addr loaded
  have stored := (inferInstance : Sat (Plain plat) (rawStoreData plat addr 4
    ((data.setWidth 64 ||| adBits type).setWidth 32) : IssM isa World Unit)).holds (s.withWorld w)
  exact
    { regs := rfl
      fpRegs := rfl
      lastPc := rfl
      prv := rfl
      reg := rfl
      world := .flags size access rfl
      levels := stored.levels }

theorem still_walkLevels (vm : VmInfo) (va : Word isa) (type : MemoryAccessType)
    (sMode sum mxr : Bool) (i : Nat) (base : BitVec 64) :
    Sat (Still plat)
      (walkLevels plat vm (va.setWidth 64) type sMode sum mxr i base : IssM isa World (BitVec 64)) := by
  induction i generalizing base with
  | zero =>
    unfold walkLevels
    infer_instance
  | succ i ih =>
    refine ⟨fun s => ?_⟩
    have load := @still_loadPte isa World plat vm (ptePaddr vm (va.setWidth 64) base i)
    have fault : Sat (Still plat) (pageFault type (va.setWidth 64) : IssM isa World (BitVec 64)) :=
      inferInstance
    unfold walkLevels
    cases ran : (loadPte plat vm (ptePaddr vm (va.setWidth 64) base i)).run s with
    | mk result t =>
      cases result with
      | error e =>
        rw [Exec.run_bind_error ran]
        exact load.error ran
      | ok pte =>
        rw [Exec.run_bind_ok ran]
        have loaded := load.ok ran
        split
        case isTrue => exact Closed.trans loaded (fault.holds t)
        split
        case isTrue => exact Closed.trans loaded ((ih _).holds t)
        split
        case isTrue => exact Closed.trans loaded (fault.holds t)
        by_cases missing : pte &&& adBits type ≠ adBits type
        · rw [Exec.when_pos missing]
          have updated := still_updatePte plat ran type
          cases stored : (mmuStorePte32 plat (ptePaddr vm (va.setWidth 64) base i)
              ((pte ||| adBits type).setWidth 32)).run t with
          | mk result u =>
            rw [stored] at updated
            cases result with
            | error e =>
              rw [Exec.run_bind_error stored]
              exact updated
            | ok done =>
              rw [Exec.run_bind_ok stored]
              exact updated
        · rw [Exec.when_neg missing]
          exact loaded

instance : Sat (Gentle plat) (Exec.call plat.updateAndGetMtime) :=
  .call fun w => ⟨.updateAndGetMtime w, nofun⟩

theorem still_atomicUnlock : Sat (Still plat) (atomicUnlock plat : IssM isa World Unit) := by
  unfold atomicUnlock
  infer_instance

instance : Loads plat (@Still isa World plat) where
  load := still_rawLoadData plat
  translate va type := sat_translate plat (Still plat) fun vm => still_walkLevels plat vm va type
  proxy _ _ := inferInstance
  time := by
    unfold updateTime
    infer_instance
  release := by
    have := @still_atomicUnlock isa World plat
    unfold releaseLrScReservation
    infer_instance
  sleep := inferInstance

instance : Locks plat (@Still isa World plat) where
  lock := by
    unfold busLock
    infer_instance
  unlock := still_atomicUnlock plat
  lrAddr _ := still_update plat fun _ => ⟨rfl, rfl, rfl, rfl, rfl, rfl⟩
  counter _ := still_update plat fun _ => ⟨rfl, rfl, rfl, rfl, rfl, rfl⟩

end Still

end Iss

end RiscvVp
