/-
# RiscvVp.Soc.Accesses -- loads, stores and read-modify-writes over the memories

The memory instructions of a core on memories that nobody else has locked, wherever its addresses
lead to: `rd` and the bytes are the specified ones, and nothing else of the core or of the memories
has changed, but for the TLB.  A read-modify-write takes the bus lock in front of its load, and its
store gives the lock back.
-/
import RiscvVp.Iss.IntExec
import RiscvVp.Iss.Machine
import RiscvVp.Soc.DataPath

namespace RiscvVp

set_option autoImplicit false

open Lib

namespace Iss

variable {isa : Isa}

/-! ## Values and addresses -/

section Fields

variable (instr : Instruction)

theorem sImm_extended : instr.sImm.signExtend isa.xlen = (Spec.immS instr).signExtend isa.xlen := by
  unfold Instruction.sImm Spec.immS
  revert instr
  cases isa <;> exact OrHom.ext (by decide)

theorem location_load (a : Word isa) : dataAddr (a + instr.iImm.signExtend isa.xlen) =
    Spec.location (Spec.add a ((Spec.immI instr).signExtend _)) := by
  rw [iImm_extended, TwosComplement.add_eq]
  exact (BitVec.ofNat_toNat 64 _).symm

theorem location_store (a : Word isa) : dataAddr (a + instr.sImm.signExtend isa.xlen) =
    Spec.location (Spec.add a ((Spec.immS instr).signExtend _)) := by
  rw [sImm_extended, TwosComplement.add_eq]
  exact (BitVec.ofNat_toNat 64 _).symm

theorem location_atomic (a : Word isa) : dataAddr a = Spec.location a := (BitVec.ofNat_toNat 64 a).symm

end Fields

section Operations

variable {w : Nat} (a b : BitVec w)

theorem amoMin_eq : amoMin a b = Spec.min a b := by
  simp only [amoMin, Spec.min, BitVec.slt_eq_decide, decide_eq_true_eq, ← Int.not_le, ite_not]

theorem amoMax_eq : amoMax a b = Spec.max a b := by
  simp only [amoMax, Spec.max, BitVec.slt_eq_decide, decide_eq_true_eq, ← Int.not_le, ite_not]

theorem amoMinu_eq : amoMinu a b = Spec.minu a b := by
  simp only [amoMinu, Spec.minu, BitVec.ult_eq_decide, decide_eq_true_eq, ← Nat.not_le, ite_not]

theorem amoMaxu_eq : amoMaxu a b = Spec.maxu a b := by
  simp only [amoMaxu, Spec.maxu, BitVec.ult_eq_decide, decide_eq_true_eq, ← Nat.not_le, ite_not]

theorem amoAdd_eq : a + b = Spec.add a b := TwosComplement.add_eq a b

end Operations

/-- With `Inv`, accesses to `va` go to `pa`; on the way there only the TLB changes, and `Inv` holds
again. -/
structure Leads {World : Type} (plat : Platform World) (Inv : Iss isa World → Prop) (type : MemoryAccessType)
    (va pa : BitVec 64) : Prop where
  run : ∀ {u}, Inv u → ∃ tlb, (v2p plat va type).run u = (.ok pa, { u with tlb := tlb }) ∧
    Inv { u with tlb := tlb }

theorem run_trapCheckAddrAlignment {World : Type} {bytes : Nat} {addr : BitVec 64} {isLoad : Bool}
    (aligned : addr.toNat % bytes = 0) (s : Iss isa World) :
    (trapCheckAddrAlignment bytes isLoad addr).run s = (.ok (), s) := by
  unfold trapCheckAddrAlignment
  rw [if_neg (fun odd => odd aligned)]
  rfl

end Iss

namespace Soc

open Iss

variable {isa : Isa} {Dev : Type} {soc : Soc Dev} {base : Platform (SocState Dev)}
  {windows : List MemoryDMI} {u : Iss isa (SocState Dev)} {e : MemoryDMI} {instr : Instruction}
  {Inv : Iss isa (SocState Dev) → Prop}

/-! ## What an access leaves -/

/-- `rd` and the bytes are as specified, and all the rest as it was, but for the TLB and the lock,
which is still at the disposal of the hart. -/
structure Touched (soc : Soc Dev) (u : Iss isa (SocState Dev)) (i : Instruction)
    (acc : Spec.Access isa) (t : Iss isa (SocState Dev)) : Prop where
  frame : t = { u with regs := t.regs, world := t.world, tlb := t.tlb }
  regs : t.regs = match acc.result ((soc.bytes u.world).read acc.addr acc.bytes) with
    | some value => fun r => if r = Spec.rd i then value else u.regs r
    | none => u.regs
  bytes : soc.bytes t.world = match acc.update ((soc.bytes u.world).read acc.addr acc.bytes) with
    | some value => (soc.bytes u.world).write acc.addr acc.bytes value
    | none => soc.bytes u.world
  shape : SameShape u.world t.world
  free : OpenTo u.hartId t.world
  unlocked : u.world.lock.locked = false → t.world.lock.locked = false

theorem SameShape.refl (w : SocState Dev) : SameShape w w := ⟨fun _ => rfl, rfl, rfl⟩

/-- A store leaves the lock to everybody. -/
theorem unlocked_stored {hart : BitVec 64} {w : SocState Dev} (free : OpenTo hart w) (e : MemoryDMI)
    (addr : BitVec 64) {n : Nat} (value : BitVec (8 * n)) :
    (soc.stored hart e addr n value w).lock.locked = false := by
  have lock : (soc.dmiWrite e addr n value w).lock = w.lock := by
    unfold dmiWrite
    split <;> rfl
  show (BusLock.unlock _ hart).locked = false
  rw [lock]
  unfold BusLock.unlock BusLock.isLocked
  cases locked : w.lock.locked with
  | false => exact locked
  | true => simp [free locked]

section Data

variable {n : Nat} {pa : BitVec 64} (wired : soc.Wired u.world windows) (covers : soc.Covers u.world e)
  (positive : 0 < n) (inv : Inv u) (free : OpenTo u.hartId u.world)

include wired covers positive inv free

theorem run_load_leads {va : BitVec 64} (leads : Leads (soc.platform base windows) Inv .load va pa)
    (holds : e.Holds pa n) : ∃ tlb, (loadData (soc.platform base windows) va n).run u =
      (.ok ((soc.bytes u.world).read pa n), { u with tlb := tlb }) ∧ Inv { u with tlb := tlb } := by
  obtain ⟨tlb, translated, inv'⟩ := leads.run inv
  refine ⟨tlb, ?_, inv'⟩
  unfold loadData
  rw [Exec.run_bind_ok translated]
  unfold rawLoadData
  rw [Exec.run_read_bind]
  exact run_onWorld (s := { u with tlb := tlb }) (run_rawLoadData wired covers positive holds free)

theorem run_store_leads {va : BitVec 64} (leads : Leads (soc.platform base windows) Inv .store va pa)
    (holds : e.Holds pa n) (value : BitVec (8 * n)) :
    ∃ tlb, (storeData (soc.platform base windows) va n value).run u =
      (.ok (), { u with tlb := tlb, world := soc.stored u.hartId e pa n value u.world }) ∧
        Inv { u with tlb := tlb } := by
  obtain ⟨tlb, translated, inv'⟩ := leads.run inv
  refine ⟨tlb, ?_, inv'⟩
  unfold storeData
  rw [Exec.run_bind_ok translated]
  unfold rawStoreData
  rw [Exec.run_read_bind]
  exact run_onWorld (s := { u with tlb := tlb }) (run_rawStoreData wired covers positive holds free value)

theorem touched_load {extend : BitVec (8 * n) → Word isa} {value : BitVec (8 * n) → Int}
    {acc : Spec.Access isa} (same : ∀ data, extend data = .ofInt _ (value data))
    (defined : Spec.load n value (Spec.add (u.regs (Spec.rs1 instr)) ((Spec.immI instr).signExtend _)) =
      some acc)
    (aligned : acc.addr.toNat % acc.bytes = 0)
    (leads : Leads (soc.platform base windows) Inv .load acc.addr pa) (holds : e.Holds pa acc.bytes) :
    ∃ t, (execLoad instr (soc.platform base windows) n extend).run u = (.ok (), t) ∧
      Touched soc u instr { acc with addr := pa } t ∧ Inv { u with tlb := t.tlb } := by
  cases defined
  let data := (soc.bytes u.world).read pa n
  obtain ⟨tlb, reads, inv'⟩ := run_load_leads wired covers positive inv free leads holds
  let v : Iss isa (SocState Dev) := { u with tlb := tlb }
  refine ⟨v.setReg (Spec.rd instr) (extend data), ?_, ⟨rfl, ?_, rfl, .refl _, free, id⟩, inv'⟩
  · unfold execLoad
    rw [run_readReg_bind, regIndex_rs1, location_load]
    rw [Exec.run_bind_ok (run_trapCheckAddrAlignment aligned u), Exec.run_bind_ok reads]
    exact run_writeReg _
  · exact congrArg (fun value r => if r = Spec.rd instr then value else u.regs r) (same data)

theorem touched_store {acc : Spec.Access isa} (defined : Spec.store n (u.regs (Spec.rs2 instr))
      (Spec.add (u.regs (Spec.rs1 instr)) ((Spec.immS instr).signExtend _)) = some acc)
    (aligned : acc.addr.toNat % acc.bytes = 0)
    (leads : Leads (soc.platform base windows) Inv .store acc.addr pa) (holds : e.Holds pa acc.bytes) :
    ∃ t, (execStore instr (soc.platform base windows) n).run u = (.ok (), t) ∧
      Touched soc u instr { acc with addr := pa } t ∧ Inv { u with tlb := t.tlb } := by
  cases defined
  let val := (u.regs (Spec.rs2 instr)).setWidth (8 * n)
  have value : val = .ofNat _ (u.regs (Spec.rs2 instr)).toNat := (BitVec.ofNat_toNat _ _).symm
  obtain ⟨tlb, stores, inv'⟩ := run_store_leads wired covers positive inv free leads holds val
  let w : Iss isa (SocState Dev) := { u with tlb := tlb, world := soc.stored u.hartId e pa n val u.world }
  refine ⟨w, ?_, ⟨rfl, rfl, ?_, soc.sameShape_stored u.hartId e pa val u.world,
    soc.openTo_stored free e pa val, fun _ => unlocked_stored free e pa val⟩, inv'⟩
  · unfold execStore
    rw [run_readReg_bind, regIndex_rs1, location_store]
    rw [Exec.run_bind_ok (run_trapCheckAddrAlignment aligned u), run_readReg_bind, regIndex_rs2]
    exact stores
  · rw [← value]
    exact bytes_dmiWrite covers holds _

omit positive inv wired covers in
/-- The lock is free, or the hart's own. -/
theorem run_busLock : (busLock (soc.platform base windows)).run u =
    (.ok (), u.withWorld { u.world with lock := ⟨true, u.hartId⟩ }) := by
  have granted : u.world.lock.waitForAccessRights u.hartId = some u.world.lock := by
    unfold BusLock.waitForAccessRights BusLock.isLocked
    cases locked : u.world.lock.locked with
    | false => rfl
    | true => simp [free locked]
  have acquires : u.world.lock.acquire u.hartId = some ⟨true, u.hartId⟩ := by
    unfold BusLock.acquire
    rw [granted]
    rfl
  unfold busLock
  rw [Exec.run_read_bind]
  refine run_onWorld (Platform.run_await_some ?_)
  exact congrArg (Option.map fun lock => { u.world with lock := lock }) acquires

/-- The lock is taken, the word is read, written, and given back with the lock. -/
theorem touched_amo {operation spec : BitVec (8 * n) → BitVec (8 * n) → BitVec (8 * n)}
    {acc : Spec.Access isa} (same : ∀ a b, operation a b = spec a b)
    (defined : Spec.amo n spec (u.regs (Spec.rs2 instr)) (u.regs (Spec.rs1 instr)) = some acc)
    (aligned : acc.addr.toNat % acc.bytes = 0)
    (lock : ∀ {u} lock, Inv u → OpenTo u.hartId { u.world with lock := lock } →
      Inv (u.withWorld { u.world with lock := lock }))
    (leads : ∀ {type}, type ≠ .fetch → Leads (soc.platform base windows) Inv type acc.addr pa)
    (holds : e.Holds pa acc.bytes) :
    ∃ t, (executeAmo instr (soc.platform base windows) n operation).run u = (.ok (), t) ∧
      Touched soc u instr { acc with addr := pa } t ∧ Inv { u with tlb := t.tlb } := by
  cases defined
  let addr := Spec.location (u.regs (Spec.rs1 instr))
  let data := (soc.bytes u.world).read pa n
  let val := operation data ((u.regs (Spec.rs2 instr)).setWidth (8 * n))
  let v := u.withWorld { u.world with lock := ⟨true, u.hartId⟩ }
  have same' : SameShape u.world v.world := ⟨fun _ => rfl, rfl, rfl⟩
  have wired' : soc.Wired v.world windows :=
    ⟨fun f known => same'.covers (wired.covers f known), wired.disjoint⟩
  have covers' : soc.Covers v.world e := same'.covers covers
  have free' : OpenTo v.hartId v.world := fun _ => rfl
  have locks : (busLock (soc.platform base windows)).run u = (.ok (), v) := run_busLock free
  obtain ⟨tlb, reads, inv₁⟩ :=
    run_load_leads wired' covers' positive (lock ⟨true, u.hartId⟩ inv free') free' (leads nofun) holds
  let v₁ : Iss isa (SocState Dev) := { v with tlb := tlb }
  obtain ⟨tlb', stores, inv₂⟩ :=
    run_store_leads (u := v₁) wired' covers' positive inv₁ free' (leads nofun) holds val
  let w : Iss isa (SocState Dev) :=
    { v with tlb := tlb', world := soc.stored v.hartId e pa n val v.world }
  have loads : (atomicLoadData (soc.platform base windows) addr n).run u = (.ok data, v₁) := by
    unfold atomicLoadData
    rw [Exec.run_bind_ok locks]
    exact reads
  have mine : (soc.platform base windows).isLocked v₁.hartId v₁.world = true :=
    (Bool.and_eq_true _ _).mpr ⟨rfl, beq_self_eq_true _⟩
  have value : val = spec data (.ofNat _ (u.regs (Spec.rs2 instr)).toNat) := by
    rw [BitVec.ofNat_toNat]
    exact same _ _
  have stores' : (atomicStoreData (soc.platform base windows) addr n val).run v₁ = (.ok (), w) := by
    have asked : (busIsLocked (soc.platform base windows)).run v₁ = (.ok true, v₁) :=
      congrArg (fun locked => (Except.ok locked, v₁)) mine
    unfold atomicStoreData
    rw [Exec.run_bind_ok asked, run_assert_bind v₁ rfl]
    exact stores
  refine ⟨w.setReg (Spec.rd instr) (data.signExtend isa.xlen), ?_, ⟨rfl, rfl, ?_,
    same'.trans (soc.sameShape_stored v.hartId e pa val v.world), soc.openTo_stored free' e pa val,
    fun _ => unlocked_stored free' e pa val⟩, ?_⟩
  · unfold executeAmo
    rw [run_readReg_bind, regIndex_rs1, location_atomic]
    rw [Exec.run_bind_ok (run_trapCheckAddrAlignment aligned u),
      Exec.run_bind_ok (Exec.run_tryCatch_ok loads), run_readReg_bind, regIndex_rs2]
    exact (Exec.run_bind_ok stores').trans (run_writeReg _)
  · refine (bytes_dmiWrite covers' holds val).trans ?_
    exact congrArg (fun value => (soc.bytes u.world).write pa n value) value
  · exact lock u.world.lock inv₂ free

end Data

/-! ## The instructions -/

theorem run_wide {m : IssM isa (SocState Dev) Unit} {access : Option (Spec.Access isa)}
    {acc : Spec.Access isa} {P : Iss isa (SocState Dev) → Prop} (defined : Spec.wide access = some acc)
    (ran : access = some acc → ∃ t, m.run u = (.ok (), t) ∧ P t) :
    ∃ t, (onlyRv64 m).run u = (.ok (), t) ∧ P t := by
  cases isa with
  | rv32 => cases defined
  | rv64 => exact ran defined

/-- Every access that the specification defines, at an address that leads to memories that are there
and free. -/
theorem exec_access {op : Mapping} {acc : Spec.Access isa} {pa : BitVec 64}
    (wired : soc.Wired u.world windows) (covers : soc.Covers u.world e) (inv : Inv u)
    (free : OpenTo u.hartId u.world) (enabled : Extends (Misa.A isa) u)
    (lock : ∀ {u} lock, Inv u → OpenTo u.hartId { u.world with lock := lock } →
      Inv (u.withWorld { u.world with lock := lock }))
    (defined : Spec.access isa instr (u.regs (Spec.rs1 instr)) (u.regs (Spec.rs2 instr)) op = some acc)
    (aligned : acc.addr.toNat % acc.bytes = 0)
    (leads : ∀ {type}, type ≠ .fetch → Leads (soc.platform base windows) Inv type acc.addr pa)
    (holds : e.Holds pa acc.bytes) :
    ∃ t, (exec instr (soc.platform base windows) op).run u = (.ok (), t) ∧
      Touched soc u instr { acc with addr := pa } t ∧ Inv { u with tlb := t.tlb } := by
  have signed : ∀ {n : Nat} (data : BitVec (8 * n)), data.signExtend isa.xlen = .ofInt _ data.toInt :=
    fun _ => rfl
  have unsigned : ∀ {n : Nat} (data : BitVec (8 * n)), data.setWidth isa.xlen = .ofInt _ data.toNat :=
    fun data => TwosComplement.setWidth_eq_ofInt data
  have atomic : ∀ {m : IssM isa (SocState Dev) Unit},
      (do requireIsa (Misa.A isa); m : IssM isa (SocState Dev) Unit).run u = m.run u :=
    fun {m} => Exec.run_bind_ok (run_requireIsa_present enabled)
  have reads := @touched_load isa Dev soc base windows u e instr Inv
  have writes := @touched_store isa Dev soc base windows u e instr Inv
  have swaps := @touched_amo isa Dev soc base windows u e instr Inv
  have loads : Leads (soc.platform base windows) Inv .load acc.addr pa := leads nofun
  have stores : Leads (soc.platform base windows) Inv .store acc.addr pa := leads nofun
  cases op
  case lb => exact reads wired covers (by decide) inv free signed defined aligned loads holds
  case lh => exact reads wired covers (by decide) inv free signed defined aligned loads holds
  case lw => exact reads wired covers (by decide) inv free signed defined aligned loads holds
  case lbu => exact reads wired covers (by decide) inv free unsigned defined aligned loads holds
  case lhu => exact reads wired covers (by decide) inv free unsigned defined aligned loads holds
  case ld =>
    exact run_wide defined fun defined =>
      reads wired covers (by decide) inv free signed defined aligned loads holds
  case lwu =>
    exact run_wide defined fun defined =>
      reads wired covers (by decide) inv free unsigned defined aligned loads holds
  case sb => exact writes wired covers (by decide) inv free defined aligned stores holds
  case sh => exact writes wired covers (by decide) inv free defined aligned stores holds
  case sw => exact writes wired covers (by decide) inv free defined aligned stores holds
  case sd =>
    exact run_wide defined fun defined => writes wired covers (by decide) inv free defined aligned stores holds
  case amoswapW | amoaddW | amoxorW | amoandW | amoorW | amominW | amominuW | amomaxW | amomaxuW =>
    simp only [exec, executeAmoW, atomic]
    exact swaps wired covers (by decide) inv free (by
      first | exact fun _ _ => rfl | exact amoAdd_eq | exact amoMin_eq | exact amoMinu_eq
            | exact amoMax_eq | exact amoMaxu_eq) defined aligned lock leads holds
  case amoswapD | amoaddD | amoxorD | amoandD | amoorD | amominD | amominuD | amomaxD | amomaxuD =>
    exact run_wide defined fun defined => swaps wired covers (by decide) inv free (by
      first | exact fun _ _ => rfl | exact amoAdd_eq | exact amoMin_eq | exact amoMinu_eq
            | exact amoMax_eq | exact amoMaxu_eq) defined aligned lock leads holds
  all_goals cases defined

end Soc

end RiscvVp
