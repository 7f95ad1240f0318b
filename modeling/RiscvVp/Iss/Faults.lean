/-
# RiscvVp.Iss.Faults -- the traps of memory accesses

A fetch, a load or a store at a virtual address that its translation turns down ends in
the page fault of its kind, with that address.  One that the bus turns down should be an
access fault of its kind, again with that address; but `_do_transaction` raises the page
fault of a load or of a store, with the address on the bus.  So a trap tells the truth
exactly when the bus has refused nothing.  Two consequences are drawn: for the AMOs, whose
faults should all be those of a store, and for the RV32 core, where an address on the bus
may not fit in `mtval`.
-/
import RiscvVp.Iss.Atomic
import RiscvVp.Iss.CsrWrite
import RiscvVp.Iss.Watch

namespace RiscvVp

set_option autoImplicit false

open Lib Transition

/-- A memory whose bus answers with an error at some addresses. -/
def Flat.without (refused : BitVec 64 → Bool) : Platform Flat :=
  { Flat.platform with
    busRead := fun addr n w => if refused addr then (none, w) else Flat.platform.busRead addr n w
    busWrite := fun addr n value w =>
      if refused addr then (false, w) else Flat.platform.busWrite addr n value w }

/-- The width of the access of an AMO. -/
def Mapping.amoBytes : Mapping → Nat
  | .amoswapD | .amoaddD | .amoxorD | .amoandD | .amoorD
  | .amominD | .amominuD | .amomaxD | .amomaxuD => 8
  | _ => 4

namespace Iss

open Platform

variable {isa : Isa} {World : Type}

/-! ## One access -/

section Access

/-- The page fault of an access, or the trap of a refusal. -/
abbrev Faulted (type : MemoryAccessType) (va : BitVec 64) :
    Transition (Iss isa (Watched World)) Exc :=
  Told (· = ⟨pageFaultCode type, va⟩) fun r e => e = r.trap

variable (plat : Platform World) (type : MemoryAccessType) (va : BitVec 64)

instance : Lifts Recorded (@Faulted isa World type va) := lifts_told fun _ => rfl

instance : Walks (@Faulted isa World type va) type va where
  fault _ := told_trap rfl
  abort _ _ _ := .inl ⟨rfl, nofun⟩
  fill _ _ := told_none rfl

instance (addr : BitVec 64) (n : Nat) :
    Sat (@Faulted isa World type va) (rawLoadData plat.watch addr n) :=
  sat_rawLoadData plat.watch Recorded (Faulted type va) addr n

instance (addr : BitVec 64) (n : Nat) (value : BitVec (8 * n)) :
    Sat (@Faulted isa World type va) (rawStoreData plat.watch addr n value) :=
  sat_rawStoreData plat.watch Recorded (Faulted type va) addr n value

instance : Sat (@Faulted isa World type va) (v2p plat.watch va type) :=
  sat_v2p plat.watch Recorded (Faulted type va) type va

instance (n : Nat) : Sat (@Faulted isa World .load va) (loadData plat.watch va n) := by
  unfold loadData
  infer_instance

instance (n : Nat) (value : BitVec (8 * n)) :
    Sat (@Faulted isa World .store va) (storeData plat.watch va n value) := by
  unfold storeData
  infer_instance

theorem faulted_fetch (s : Iss isa (Watched World)) :
    SatAt (Faulted .fetch (s.pc.setWidth 64)) (fetch plat.watch) s := by
  unfold fetch
  refine .bind (.of_sat inferInstance) fun pc _ read => ?_
  cases read
  have loaded : Sat (@Faulted isa World .fetch (s.pc.setWidth 64)) _ :=
    sat_loadInstr plat.watch Recorded (Faulted .fetch _) (s.pc.setWidth 64)
  refine .bind (.tryCatch (.of_sat loaded) fun e t thrown => ?_) fun _ _ _ =>
    .of_sat (.update fun _ => told_none rfl)
  cases e with
  | trap e => exact thrown
  | abort cause => exact thrown
  | blocked => exact thrown

end Access

/-- An access of the core: the fetch of an instruction, or a load or a store of data. -/
inductive Access where
  | fetch
  | load (va : BitVec 64) (n : Nat)
  | store (va : BitVec 64) (n : Nat) (value : BitVec (8 * n))

namespace Access

def type : Access → MemoryAccessType
  | fetch => .fetch
  | load _ _ => .load
  | store _ _ _ => .store

/-- The virtual address it is made at. -/
def addr (s : Iss isa World) : Access → BitVec 64
  | fetch => s.pc.setWidth 64
  | load va _ => va
  | store va _ _ => va

def issue (plat : Platform World) : Access → IssM isa World Unit
  | fetch => Iss.fetch plat
  | load va n => do let _ ← loadData plat va n
  | store va n value => storeData plat va n value

end Access

def accessFaultCode : MemoryAccessType → ExceptionCode
  | .fetch => .instrAccessFault
  | .load => .loadAccessFault
  | .store => .storeAmoAccessFault

/-- What the trap of an access should say: its kind, whether it is the bus that turned it
down, and its address. -/
structure Classified (type : MemoryAccessType) (va : BitVec 64) (refused : Prop)
    (e : SimulationTrap) : Prop where
  access : refused → e.reason = accessFaultCode type
  page : ¬ refused → e.reason = pageFaultCode type
  tval : e.mtval = va

theorem faulted_issue (plat : Platform World) (access : Access) (s : Iss isa (Watched World)) :
    SatAt (Faulted access.type (access.addr s)) (access.issue plat.watch) s := by
  cases access with
  | fetch => exact faulted_fetch plat s
  | load va n =>
    have loaded : Sat (Faulted .load va) (loadData plat.watch va n : IssM isa (Watched World) _) :=
      inferInstance
    exact .bind (.of_sat loaded) fun _ _ _ => .of_sat inferInstance
  | store va n value =>
    have stored : Sat (Faulted .store va) (storeData plat.watch va n value : IssM isa (Watched World) _) :=
      inferInstance
    exact .of_sat stored

/-- The trap of a refusal is a page fault. -/
theorem refusal_not_access (r : Refusal) (type : MemoryAccessType) :
    r.trap.reason ≠ accessFaultCode type := by
  cases r with
  | mk isWrite addr => cases isWrite <;> cases type <;> nofun

/-- The traps of an access are what they should be exactly when the bus refuses none of its
transactions. -/
theorem classified_iff (plat : Platform World) (access : Access) (s : Iss isa (Watched World)) :
    (∀ e t, (access.issue plat.watch).run s = (.error (.trap e), t) →
      Classified access.type (access.addr s) (∃ r, Refuses (access.issue plat.watch) s r) e) ↔
    ∀ r, ¬ Refuses (access.issue plat.watch) s r := by
  have told := faulted_issue plat access s
  constructor
  · intro classified r refuses
    obtain ⟨e, t, ran, rfl⟩ := told.of_refuses refuses
    exact refusal_not_access r _ ((classified _ t ran).access ⟨r, refuses⟩)
  · intro accepts e t ran
    rcases told.of_trap ran with fault | ⟨r, refuses, -⟩
    · cases fault
      exact ⟨fun ⟨r, refuses⟩ => absurd refuses (accepts r), fun _ => rfl, rfl⟩
    · exact absurd refuses (accepts r)

/-- A word of a bus that refuses everything is a page fault. -/
theorem refused_load_is_page_fault : ¬ ∀ (access : Access) (s : Iss .rv64 (Watched Flat)) e t,
    (access.issue (Flat.without fun _ => true).watch).run s = (.error (.trap e), t) →
      Classified access.type (access.addr s)
        (∃ r, Refuses (access.issue (Flat.without fun _ => true).watch) s r) e := by
  intro classified
  have raised := classified (.load 0x1000 4) (reset 0 false 0 0 (⟨repeating 0, 0, none⟩, []))
    ⟨.loadPageFault, 0x1000⟩ _ (Prod.ext (by decide) rfl)
  exact absurd (raised.access ⟨⟨false, 0x1000⟩, by unfold Refuses; decide⟩) (by decide)

/-! ## An AMO -/

section Amo

variable {instr : Instruction} {op : Mapping} {plat : Platform World} {s : Iss isa World}

/-- Whether the core implements the instruction. -/
def HasAmo (op : Mapping) (s : Iss isa World) : Prop :=
  match op.amoBytes with
  | 8 => isa = .rv64
  | _ => Extends (Misa.A isa) s

theorem run_exec_amo (amo : op.isAmo = true) (has : HasAmo op s) :
    ∃ f, (exec instr plat op).run s = (executeAmo instr plat op.amoBytes f).run s := by
  cases op
  case amoswapW | amoaddW | amoxorW | amoandW | amoorW | amominW | amominuW | amomaxW | amomaxuW =>
    exact ⟨_, Exec.run_bind_ok (run_requireIsa_present has)⟩
  case amoswapD | amoaddD | amoxorD | amoandD | amoorD | amominD | amominuD | amomaxD | amomaxuD =>
    cases has
    exact ⟨_, rfl⟩
  all_goals cases amo

theorem run_exec_amo_missing (amo : op.isAmo = true) (lacks : ¬ HasAmo op s) :
    (exec instr plat op).run s = (.error (.trap ⟨.illegalInstr, s.instr.setWidth 64⟩), s) := by
  cases op
  case amoswapW | amoaddW | amoxorW | amoandW | amoorW | amominW | amominuW | amomaxW | amomaxuW =>
    exact Exec.run_bind_error (run_requireIsa_missing lacks)
  case amoswapD | amoaddD | amoxorD | amoandD | amoorD | amominD | amominuD | amomaxD | amomaxuD =>
    cases isa with
    | rv32 => rfl
    | rv64 => exact absurd rfl lacks
  all_goals cases amo

end Amo

/-- The three causes that an AMO should have. -/
def IsStoreAmo (reason : ExceptionCode) : Prop :=
  reason = .storeAmoAddrMisaligned ∨ reason = .storeAmoAccessFault ∨ reason = .storeAmoPageFault

section Amo

variable (plat : Platform World) (instr : Instruction) (bytes : Nat) (s : Iss isa (Watched World))

def amoAddr : BitVec 64 := dataAddr (s.regs (regIndex instr.rs1))

/-- The first translation of an AMO, which is for a load, ends in a page fault. -/
def LoadFaults : Prop :=
  (amoAddr instr s).toNat % bytes = 0 ∧ ∃ u t, (busLock plat.watch).run s = (.ok (), u) ∧
    (v2p plat.watch (amoAddr instr s) .load).run u =
      (.error (.trap ⟨.loadPageFault, amoAddr instr s⟩), t) ∧ t.refusals = u.refusals

/-- What ends an AMO is a fault of a store, or its first translation, or the bus. -/
abbrev AmoFaulted : Transition (Iss isa (Watched World)) Exc :=
  Told (fun e => IsStoreAmo e.reason ∨ LoadFaults plat instr bytes s) fun r e => e = r.trap

instance : Lifts Recorded (AmoFaulted plat instr bytes s) := lifts_told fun _ => rfl

variable {plat instr bytes s}

theorem amoFaulted_alignment {addr : BitVec 64} :
    Sat (AmoFaulted plat instr bytes s) (trapCheckAddrAlignment bytes false addr) := by
  unfold trapCheckAddrAlignment
  exact .ite (fun _ => .raise fun _ => told_trap (.inl (.inl rfl))) fun _ => inferInstance

theorem amoFaulted_load (aligned : (amoAddr instr s).toNat % bytes = 0) :
    SatAt (AmoFaulted plat instr bytes s)
      ((atomicLoadData plat.watch (amoAddr instr s) bytes).tryCatch amoFault) s := by
  refine .tryCatch ?_ fun e t thrown => ?_
  · have lock : Sat (AmoFaulted plat instr bytes s) (busLock plat.watch) :=
      .bind inferInstance fun _ => sat_onWorld Recorded _ (recorded_await _)
    refine .bind (.of_sat lock) fun _ u locked => .bind ?_ fun paddr v _ => ?_
    · have translated := (inferInstance : Sat (@Faulted isa World .load (amoAddr instr s))
        (v2p plat.watch (amoAddr instr s) .load)).holds u
      cases ran : (v2p plat.watch (amoAddr instr s) .load).run u with
      | mk result w =>
        unfold SatAt
        rw [ran] at translated ⊢
        rcases translated with ⟨same, fault⟩ | refused
        · refine .inl ⟨same, fun e ended => .inr ⟨aligned, u, w, locked, ?_, same⟩⟩
          cases result with
          | ok _ => cases ended
          | error e' =>
            cases ended
            rw [ran, fault e rfl]
            rfl
        · exact .inr refused
    · exact .of_sat (sat_rawLoadData plat.watch Recorded (AmoFaulted plat instr bytes s) paddr bytes)
  · cases e with
    | abort cause => exact thrown
    | blocked => exact thrown
    | trap e =>
      by_cases access : e.reason = .loadAccessFault
      · have caught : (amoFault (.trap e) : IssM isa (Watched World) (BitVec (8 * bytes))).run t =
            (.error (.trap ⟨.storeAmoAccessFault, e.mtval⟩), t) := by
          simp only [amoFault, if_pos access]
          rfl
        rw [caught]
        rcases thrown with ⟨same, -⟩ | ⟨r, _, -, ended, rfl⟩
        · exact .inl ⟨same, fun _ ended => by cases ended; exact .inl (.inr (.inl rfl))⟩
        · cases ended
          exact absurd access (refusal_not_access r .load)
      · have passed : (amoFault (.trap e) : IssM isa (Watched World) (BitVec (8 * bytes))).run t =
            (.error (.trap e), t) := by
          simp only [amoFault, if_neg access]
          rfl
        rw [passed]
        exact thrown

theorem amoFaulted_store (n : Nat) (value : BitVec (8 * n)) :
    Sat (AmoFaulted plat instr bytes s) (atomicStoreData plat.watch (amoAddr instr s) n value) := by
  have stored : Sat (AmoFaulted plat instr bytes s)
      (storeData plat.watch (amoAddr instr s) n value) :=
    (inferInstance : Sat (Faulted .store (amoAddr instr s)) _).mono fun told =>
      told.mono fun e fault => by
        cases fault
        exact .inl (.inr (.inr rfl))
  refine .bind inferInstance fun locked => .bind ?_ fun _ => stored
  unfold assert
  exact .ite (fun _ => inferInstance) fun _ => .raise fun _ => .inl ⟨rfl, nofun⟩

theorem amoFaulted_executeAmo (f : BitVec (8 * bytes) → BitVec (8 * bytes) → BitVec (8 * bytes)) :
    SatAt (AmoFaulted plat instr bytes s) (executeAmo instr plat.watch bytes f) s := by
  unfold executeAmo
  refine .bind (.of_sat inferInstance) fun _ _ read => ?_
  cases read
  refine .bind (.of_sat amoFaulted_alignment) fun _ t checked => ?_
  obtain ⟨aligned, rfl⟩ : (amoAddr instr s).toNat % bytes = 0 ∧ t = s := by
    unfold trapCheckAddrAlignment at checked
    split at checked
    · cases checked
    · rename_i aligned
      cases checked
      exact ⟨not_not.mp aligned, rfl⟩
  refine .bind (amoFaulted_load aligned) fun data u _ => ?_
  refine .bind (.of_sat inferInstance) fun _ _ read => ?_
  cases read
  exact .bind (.of_sat (amoFaulted_store _ _)) fun _ _ _ => .of_sat (.update fun _ => told_none rfl)

/-- The page fault of the first translation is what the AMO ends with. -/
theorem run_executeAmo_faults (faults : LoadFaults plat instr bytes s)
    (f : BitVec (8 * bytes) → BitVec (8 * bytes) → BitVec (8 * bytes)) :
    ∃ t, (executeAmo instr plat.watch bytes f).run s =
      (.error (.trap ⟨.loadPageFault, amoAddr instr s⟩), t) := by
  obtain ⟨aligned, u, t, locked, faulted, -⟩ := faults
  have loaded : (atomicLoadData plat.watch (amoAddr instr s) bytes).run s =
      (.error (.trap ⟨.loadPageFault, amoAddr instr s⟩), t) := by
    unfold atomicLoadData loadData
    rw [Exec.run_bind_ok locked, Exec.run_bind_error faulted]
  have passed : ((atomicLoadData plat.watch (amoAddr instr s) bytes).tryCatch amoFault).run s =
      (.error (.trap ⟨.loadPageFault, amoAddr instr s⟩), t) := by
    rw [Exec.run_tryCatch_error loaded]
    rfl
  have checked : (trapCheckAddrAlignment bytes false (amoAddr instr s) :
      IssM isa (Watched World) Unit).run s = (.ok (), s) := by
    unfold trapCheckAddrAlignment
    rw [if_neg (not_not.mpr aligned)]
    rfl
  refine ⟨t, ?_⟩
  unfold executeAmo
  have read : (readReg instr.rs1 : IssM isa (Watched World) (Word isa)).run s =
      (.ok (s.regs (regIndex instr.rs1)), s) := rfl
  rw [Exec.run_bind_ok read]
  exact (Exec.run_bind_ok checked).trans (Exec.run_bind_error passed)

/-- The traps of an AMO are those of a store exactly when the core has it, its first
translation ends in no page fault, and the bus refuses no read of it. -/
theorem amo_faults_iff {op : Mapping} (amo : op.isAmo = true) :
    (∀ e t, (exec instr plat.watch op).run s = (.error (.trap e), t) → IsStoreAmo e.reason) ↔
      HasAmo op s ∧ ¬ LoadFaults plat instr op.amoBytes s ∧
        ∀ r, Refuses (exec instr plat.watch op) s r → r.isWrite = true := by
  constructor
  · intro stores
    have has : HasAmo op s := by
      by_contra lacks
      rcases stores _ _ (run_exec_amo_missing amo lacks) with bad | bad | bad <;> cases bad
    obtain ⟨f, ran⟩ : ∃ f, (exec instr plat.watch op).run s =
        (executeAmo instr plat.watch op.amoBytes f).run s := run_exec_amo amo has
    have told := @amoFaulted_executeAmo isa World plat instr op.amoBytes s f
    refine ⟨has, fun faults => ?_, fun r refuses => ?_⟩
    · obtain ⟨t, faulted⟩ := run_executeAmo_faults faults f
      rcases stores _ _ (ran.trans faulted) with bad | bad | bad <;> cases bad
    · unfold Refuses at refuses
      rw [ran] at refuses
      obtain ⟨e, t, ended, rfl⟩ := told.of_refuses refuses
      cases r with
      | mk isWrite addr =>
        cases isWrite with
        | true => rfl
        | false => rcases stores _ _ (ran.trans ended) with bad | bad | bad <;> cases bad
  · rintro ⟨has, sound, reads⟩ e t ended
    obtain ⟨f, ran⟩ : ∃ f, (exec instr plat.watch op).run s =
        (executeAmo instr plat.watch op.amoBytes f).run s := run_exec_amo amo has
    have told := @amoFaulted_executeAmo isa World plat instr op.amoBytes s f
    rcases told.of_trap (ran.symm.trans ended) with (store | faults) | ⟨r, refuses, rfl⟩
    · exact store
    · exact absurd faults sound
    · have write : r.isWrite = true := by
        apply reads
        unfold Refuses
        rw [ran]
        exact refuses
      unfold Refusal.trap
      rw [if_pos write]
      exact .inr (.inr rfl)

end Amo

/-- A core whose page tables are all zero, at `amoadd.w x0, x0, (x1)`. -/
def unmappedCore : Iss .rv64 (Watched Flat) :=
  pagedCore 0x8000000000000001 supervisorMode (⟨repeating 0, 0, none⟩, [])

theorem amo_load_page_fault : ¬ ∀ (s : Iss .rv64 (Watched Flat)) (instr : Instruction) (op : Mapping),
    op.isAmo = true → ∀ e t, (exec instr Flat.platform.watch op).run s = (.error (.trap e), t) →
      IsStoreAmo e.reason := by
  intro stores
  have store := stores unmappedCore 0x0000A02F .amoaddW rfl ⟨.loadPageFault, 0⟩ _
    (Prod.ext (by decide) rfl)
  rcases store with bad | bad | bad <;> cases bad

/-- The same with a page that can only be read: the second translation ends in a page fault. -/
def readOnlyCore : Iss .rv64 (Watched Flat) :=
  pagedCore 0x8000000000000001 supervisorMode (⟨repeating 0x43, 0, none⟩, [])

theorem amo_store_page_fault :
    failure ((exec 0x0000A02F Flat.platform.watch .amoaddW).run readOnlyCore).1 =
        some (.trap ⟨.storeAmoPageFault, 0⟩) ∧
      ∀ e t, (exec 0x0000A02F Flat.platform.watch .amoaddW).run readOnlyCore = (.error (.trap e), t) →
        IsStoreAmo e.reason := by
  have mapped : failure ((v2p Flat.platform.watch (amoAddr 0x0000A02F readOnlyCore) .load).run
      ((busLock Flat.platform.watch).run readOnlyCore).2).1 = none := by decide
  have none : ((exec 0x0000A02F Flat.platform.watch .amoaddW).run readOnlyCore).2.refusals = [] := by
    decide
  refine ⟨by decide, (amo_faults_iff rfl).mpr ⟨nofun, ?_, fun r refuses => ?_⟩⟩
  · rintro ⟨-, u, t, locked, faulted, -⟩
    rw [locked, faulted] at mapped
    cases mapped
  · cases none.symm.trans refuses

/-! ## The value of a trap -/

/-- The value is one of a register. -/
def Fits (isa : Isa) (e : SimulationTrap) : Prop := ∃ value : Word isa, e.mtval = value.setWidth 64

/-- A trap has a value that fits, or the address of a refusal. -/
abbrev Valued : Transition (Iss isa (Watched World)) Exc :=
  Told (Fits isa) fun r e => e.mtval = r.addr

instance : Inner (@Valued isa World) where
  trap _ _ value _ := told_trap ⟨value, rfl⟩
  rethrow reason op instr _ step := by
    rcases step with ⟨same, fits⟩ | ⟨r, e, added, ended, value⟩
    · refine .inl ⟨same, fun e' same' => ?_⟩
      cases same'
      obtain ⟨value, same'⟩ := fits _ rfl
      exact ⟨value, same'⟩
    · cases ended
      exact .inr ⟨r, _, added, rfl, value⟩
  abort _ _ _ := .inl ⟨rfl, nofun⟩
  scratch _ _ _ _ := told_none rfl
  move _ _ := told_none rfl
  cycle := ⟨fun _ => told_none rfl⟩
  counter _ _ _ _ := told_none rfl
  mode _ _ _ := told_none rfl
  csr _ _ _ _ := told_none rfl
  status _ _ _ := told_none rfl

instance : Checks (@Valued isa World) where
  issue _ _ _ := told_none rfl

instance : Over Recorded (@Valued isa World) where
  toLifts := lifts_told fun _ => rfl

instance : Writes (@Valued isa World) where
  reg _ _ _ := told_none rfl
  exit _ := told_none rfl

instance : FpWrites (@Valued isa World) where
  reg _ _ _ := told_none rfl
  flags _ _ := told_none rfl
  dirty := ⟨fun _ => told_none rfl⟩
  accrue _ := ⟨fun _ => told_none rfl⟩

section Valued

variable (plat : Platform World)

instance : Modes plat.watch (@Valued isa World) :=
  modes_of_over plat.watch Recorded Valued
    (sat_release plat.watch Recorded Valued fun _ _ _ => told_none rfl)

instance : Locks plat.watch (@Valued isa World) :=
  locks_of_lifts plat.watch Recorded Valued (fun _ _ _ => told_none rfl) fun _ => recorded_await _

instance : Stores plat.watch (@Valued isa World) Valued := stores_of_lifts plat.watch Recorded Valued

theorem valued_execStep (s : Iss isa (Watched World)) : SatAt Valued (execStep plat.watch) s := by
  refine satAt_execStep inferInstance fun u _ _ => satAt_exec plat.watch Valued (fun csr => ?_)
    fun float => .of_sat (sat_exec_float _ plat.watch float)
  exact satAt_exec_csr Valued
    (fun _ _ _ => .of_sat (sat_setCsrValue (fun _ _ => told_none rfl) _ _)) csr

theorem valued_execAndInterrupt (s : Iss isa (Watched World)) :
    SatAt Valued (execAndInterrupt plat.watch) s :=
  satAt_execAndInterrupt plat.watch Valued (valued_execStep plat s)

end Valued

theorem Fits.lt {e : SimulationTrap} (fits : Fits .rv32 e) : e.mtval.toNat < 2 ^ 32 := by
  obtain ⟨value, same⟩ := fits
  have bound : value.toNat < 2 ^ 32 := value.isLt
  rw [same, BitVec.toNat_setWidth]
  omega

/-- The conversion has not failed. -/
def Converted (_ : Iss isa World) (o : Option Exc) (_ : Iss isa World) : Prop :=
  o ≠ some (.abort .lexicalCast)

instance : Closed (@Converted isa World) where
  refl _ := nofun
  trans _ second := second

theorem converted_prepareTrap {e : SimulationTrap} (small : e.mtval.toNat < 2 ^ 32) :
    Sat Converted (prepareTrap e : IssM .rv32 World PrivilegeLevel) := by
  have changes : ∀ f, Sat Converted (Exec.update f : IssM .rv32 World Unit) :=
    fun f => .update fun _ => nofun
  have value : Sat Converted (trapValue e.mtval : IssM .rv32 World (Word .rv32)) := by
    unfold trapValue assert
    rw [if_pos fun _ => small]
    infer_instance
  have delegated : ∀ (condition : Prop) [Decidable condition],
      Sat Converted (assert condition .trapDelegation : IssM .rv32 World Unit) := by
    intro condition _
    unfold assert
    exact .ite (fun _ => inferInstance) fun _ => .raise fun _ => nofun
  unfold prepareTrap
  refine .bind (.instRead _) fun _ => .bind (changes _) fun _ => .bind (.instRead _) fun _ =>
    .bind (.instRead _) fun _ => .bind (.instRead _) fun _ => ?_
  refine .ite (fun _ => ?_) fun _ => .ite (fun _ => ?_) fun _ => ?_
  · exact .bind (changes _) fun _ => .bind value fun _ => .bind (changes _) fun _ => inferInstance
  · exact .bind (changes _) fun _ => .bind value fun _ => .bind (changes _) fun _ => inferInstance
  · exact .bind (delegated _) fun _ => .bind (changes _) fun _ => .bind value fun _ =>
      .bind (changes _) fun _ => inferInstance

/-- On the RV32 core every trap of a step is delivered exactly when no transaction of the step
is refused at an address of 2^32 or above. -/
theorem trap_delivered_iff (plat : Platform World) (s : Iss .rv32 (Watched World)) :
    (∀ e t, (execAndInterrupt plat.watch).run (beforeExec plat.watch s) = (.error (.trap e), t) →
      e.mtval.toNat < 2 ^ 32 ∧ ∀ u, (prepareTrap e).run t ≠ (.error (.abort .lexicalCast), u)) ↔
    ∀ r, Refuses (execAndInterrupt plat.watch) (beforeExec plat.watch s) r → r.addr.toNat < 2 ^ 32 := by
  have told := valued_execAndInterrupt plat (beforeExec plat.watch s)
  constructor
  · intro delivered r refuses
    obtain ⟨e, t, ran, value⟩ := told.of_refuses refuses
    rw [← value]
    exact (delivered e t ran).1
  · intro small e t ran
    have bound : e.mtval.toNat < 2 ^ 32 := by
      rcases told.of_trap ran with fits | ⟨r, refuses, value⟩
      · exact fits.lt
      · rw [value]
        exact small r refuses
    exact ⟨bound, fun u failed => (converted_prepareTrap bound).error failed rfl⟩

/-- An Sv32 core whose page tables lead to 2^33, where there is nothing. -/
def farCore : Iss .rv32 (Watched Flat) :=
  pagedCore 0x80000001 supervisorMode (⟨repeating 0x800000CF800000CF, 0, none⟩, [])

theorem far_fetch_not_delivered : ¬ ∀ (s : Iss .rv32 (Watched Flat)) e t,
    (execAndInterrupt (Flat.without (0x100000000 ≤ ·)).watch).run
      (beforeExec (Flat.without (0x100000000 ≤ ·)).watch s) = (.error (.trap e), t) →
    e.mtval.toNat < 2 ^ 32 ∧ ∀ u, (prepareTrap e).run t ≠ (.error (.abort .lexicalCast), u) := by
  intro delivered
  have small := (delivered farCore ⟨.loadPageFault, 0x200000000⟩ _ (Prod.ext (by decide) rfl)).1
  exact absurd small (by decide)

end Iss

end RiscvVp
