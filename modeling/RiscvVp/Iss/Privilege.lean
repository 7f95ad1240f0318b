/-
# RiscvVp.Iss.Privilege -- what an instruction below machine mode can change

Every register of the CSR table belongs to a level, and `exposed p c` are the bits of it
that level `p` may write: all of a register of its own or of a lower level, of `mstatus`,
`mie` and `mip` the bits its own view of them shows, and nothing else.  An instruction that
stays inside, and does not raise the privilege level, is `Confined`.

All instructions at U and S are, but two: `MRET` is executed at every level, and `SRET`
asks only whether there is a supervisor mode.  And two registers of the supervisor level are
not its own on RV64: its table shows `sedeleg` and `sideleg` at the machine-level addresses of
`pmpcfg2` and `pmpcfg3` as well.
-/
import RiscvVp.Iss.CsrStorage

namespace RiscvVp

set_option autoImplicit false

open Lib Transition

/-- The level a register belongs to. -/
def Csr.level : Csr → PrivilegeLevel
  | .sedeleg | .sideleg | .stvec | .scounteren | .sscratch | .sepc | .scause | .stval | .satp =>
      supervisorMode
  | .utvec | .uscratch | .uepc | .ucause | .utval | .fcsr => userMode
  | _ => machineMode

namespace Iss

variable {isa : Isa} {World : Type}

/-! ## The bits of a level -/

def exposed (isa : Isa) (p : PrivilegeLevel) : Csr → Word isa
  | .mstatus => if p = supervisorMode then Mask.sstatusWrite isa else Mask.ustatus isa
  | .mie => if p = supervisorMode then Mask.sie isa else Mask.uie isa
  | .mip => if p = supervisorMode then Mask.sip isa else Mask.uip isa
  | c => if c.level ≤ p then BitVec.allOnes isa.xlen else 0

theorem exposed_own {p : PrivilegeLevel} {c : Csr} (lower : c.level ≠ machineMode)
    (own : c.level ≤ p) : exposed isa p c = BitVec.allOnes isa.xlen := by
  cases c
  case mstatus | mie | mip => exact absurd rfl lower
  all_goals simp only [exposed, if_pos own]

structure Confined (p : PrivilegeLevel) (s : Iss isa World) (_ : Option Exc) (t : Iss isa World) :
    Prop where
  prv : s.prv ≤ p → t.prv ≤ p
  kept : ∀ c i, (exposed isa p c).getLsbD i = false → ¬ (c = .mstatus ∧ FpStatus isa i) →
    (t.csrs.reg c).getLsbD i = (s.csrs.reg c).getLsbD i

instance (p : PrivilegeLevel) : Closed (@Confined isa World p) where
  refl _ := ⟨id, fun _ _ _ _ => rfl⟩
  trans first second :=
    { prv := fun low => second.prv (first.prv low)
      kept := fun c i hidden fp =>
        (second.kept c i hidden fp).trans (first.kept c i hidden fp) }

/-- A register that is exposed as a whole has no hidden bit. -/
theorem getLsbD_of_hidden {w : Nat} {x y : BitVec w} {i : Nat}
    (hidden : (BitVec.allOnes w).getLsbD i = false) : x.getLsbD i = y.getLsbD i := by
  have outside : w ≤ i := by simpa using hidden
  rw [BitVec.getLsbD_of_ge x i outside, BitVec.getLsbD_of_ge y i outside]

theorem getLsbD_of_subset {w : Nat} {mask whole : BitVec w} (subset : mask &&& whole = mask)
    {i : Nat} (hidden : whole.getLsbD i = false) : mask.getLsbD i = false := by
  rw [← subset, BitVec.getLsbD_and, hidden, Bool.and_false]

theorem Plain.confined {plat : Platform World} {s t : Iss isa World} {o : Option Exc}
    (plain : Plain plat s o t) (p : PrivilegeLevel) : Confined p s o t where
  prv low := by rwa [plain.prv]
  kept c i hidden fp := by
    by_cases status : c = .mstatus
    · subst status
      exact plain.status i fun covered => fp ⟨rfl, covered⟩
    by_cases float : c = .fcsr
    · subst float
      rw [exposed_own (by decide) (Nat.zero_le p.toNat)] at hidden
      exact getLsbD_of_hidden hidden
    rw [plain.reg c status float]

instance (plat : Platform World) (p : PrivilegeLevel) :
    Le (@Plain isa World plat) (Confined p) := ⟨fun plain => plain.confined p⟩

section Rules

variable {p : PrivilegeLevel}

theorem confined_setCsr {c : Csr} {f : Word isa → Word isa}
    (inside : ∀ x i, (exposed isa p c).getLsbD i = false → (f x).getLsbD i = x.getLsbD i) :
    Sat (Confined p) (Exec.update fun s : Iss isa World => s.setCsr c (f (s.csrs.reg c))) :=
  .update fun s =>
    { prv := id
      kept := fun d i hidden _ => by
        by_cases same : d = c
        · subst same
          rw [setCsr_reg_self]
          exact inside _ i hidden
        · rw [setCsr_reg_of_ne s same] }

theorem confined_writeField {c : Csr} {len : Nat} {f : Field len}
    (inside : ∀ i, f.Covers i → i < isa.xlen → (exposed isa p c).getLsbD i = true)
    (value : BitVec len) : Sat (Confined p) (writeField c f value : IssM isa World Unit) := by
  apply @confined_setCsr isa World p c fun x => f.set value x
  intro x i hidden
  rw [Field.getLsbD_set]
  split
  case isFalse => rfl
  case isTrue covered =>
    have outside : ¬ i < isa.xlen := by
      intro bound
      rw [inside i covered bound] at hidden
      cases hidden
    rw [BitVec.getLsbD_of_ge x i (Nat.le_of_not_lt outside), decide_eq_false outside]
    rfl

end Rules

/-! ## CSR instructions -/

theorem csrPrv_machine {p : PrivilegeLevel} (low : LowMode p) {addr : BitVec 12}
    (allowed : csrPrv addr ≤ p) : csrPrv addr ≠ machineMode := by
  intro machine
  rw [machine] at allowed
  rcases low with rfl | rfl <;> exact absurd allowed (by decide)

/-- Below machine mode an address leads to bits that are exposed. -/
theorem writeMask_exposed {p : PrivilegeLevel} (low : LowMode p) {a : CsrAddr}
    (allowed : csrPrv a.addr ≤ p) {c : Csr} (own : a.cell isa = some (.reg c)) :
    a.writeMask isa &&& exposed isa p c = a.writeMask isa := by
  have lower := csrPrv_machine low allowed
  have supervisor : csrPrv a.addr = supervisorMode → p = supervisorMode := by
    intro level
    rw [level] at allowed
    rcases low with rfl | rfl
    · exact absurd allowed (by decide)
    · rfl
  -- the views; every other register is exposed as a whole
  have whole : c.level = csrPrv a.addr → a.writeMask isa &&& exposed isa p c = a.writeMask isa := by
    intro level
    rw [exposed_own (level ▸ lower) (level ▸ allowed), BitVec.and_allOnes]
  cases a
  case mcycle | mcycleh | mtime | mtimeh | minstret | minstreth | mvendorid | marchid | mimpid |
      mhartid | mstatus | misa | medeleg | mideleg | mie | mtvec | mcounteren | mcountinhibit |
      mscratch | mepc | mcause | mtval | mip => exact absurd rfl lower
  case pmpcfg i => exact absurd ((by decide : ∀ i, csrPrv (CsrAddr.pmpcfg i).addr = 3) i) lower
  case pmpaddr i => exact absurd ((by decide : ∀ i, csrPrv (CsrAddr.pmpaddr i).addr = 3) i) lower
  case cycleh | timeh | instreth => cases isa <;> cases own
  case sstatus | sie | sip =>
    cases own
    rw [supervisor rfl]
    cases isa <;> decide
  case ustatus | uie | uip =>
    cases own
    rcases low with rfl | rfl <;> cases isa <;> decide
  all_goals
    cases own
  all_goals exact whole rfl

theorem Written.confined {a : CsrAddr} {p : PrivilegeLevel} (low : LowMode p)
    (allowed : csrPrv a.addr ≤ p) {s t : Iss isa World} {o : Option Exc} (written : Written a s o t) :
    Confined p s o t where
  prv := by
    rw [written.rest]
    exact id
  kept c i hidden _ := by
    apply written.kept
    rintro ⟨own, writable⟩
    rw [getLsbD_of_subset (writeMask_exposed low allowed own) hidden] at writable
    cases writable

theorem confined_csr {plat : Platform World} {instr : Instruction} {op : Mapping}
    {s : Iss isa World} (low : LowMode s.prv) (csr : op.isCsr = true) :
    SatAt (Confined s.prv) (exec instr plat op) s := by
  refine satAt_exec_csr (Plain plat) ?_ csr
  intro old u read _ _
  have allowed := read.allowed
  rcases setCsrValue_cases (instr.csr.setWidth 12)
    (csrResult instr op old (csrSource instr op s)) with illegal | ⟨a, named, write⟩
  · rw [illegal]
    exact ⟨id, fun _ _ _ _ => rfl⟩
  · rw [write]
    rw [← named] at allowed
    exact ((written_setNamedCsr a _).holds _).confined low allowed

/-! ## Trap returns -/

section Returns

variable {p : PrivilegeLevel}

theorem confined_setPrv {level : PrivilegeLevel} (below : level ≤ p) :
    Sat (Confined p) (setPrv level : IssM isa World Unit) :=
  .update fun _ => ⟨fun _ => below, fun _ _ _ _ => rfl⟩

instance (pc : Word isa) : Sat (Confined p) (setPc pc : IssM isa World Unit) :=
  .update fun _ => ⟨id, fun _ _ _ _ => rfl⟩

instance {α : Type} : Sat (Confined p) (raiseIllegalInstruction : IssM isa World α) :=
  ⟨fun _ => ⟨id, fun _ _ _ _ => rfl⟩⟩

/-- A field of `mstatus` that is one bit, shown by the view of the level. -/
theorem confined_statusBit {f : Field 1}
    (shown : (exposed isa p .mstatus).getLsbD f.lo = true) (value : BitVec 1) :
    Sat (Confined p) (writeField .mstatus f value : IssM isa World Unit) := by
  apply confined_writeField
  rintro i ⟨low, high⟩ -
  have only : i = f.lo := by omega
  rwa [only]

theorem confined_execUret (low : LowMode p) : Sat (Confined p) (execUret : IssM isa World Unit) := by
  have uie := @confined_statusBit isa World p Mstatus.uie
    (by rcases low with rfl | rfl <;> cases isa <;> decide)
  have upie := @confined_statusBit isa World p Mstatus.upie
    (by rcases low with rfl | rfl <;> cases isa <;> decide)
  have user : Sat (Confined p) (setPrv userMode : IssM isa World Unit) :=
    confined_setPrv (Nat.zero_le _)
  unfold execUret returnFromUserMode
  repeat refine .bind inferInstance fun _ => ?_
  infer_instance

theorem confined_execSret : Sat (Confined supervisorMode) (execSret : IssM isa World Unit) := by
  have sie := @confined_statusBit isa World supervisorMode Mstatus.sie (by cases isa <;> decide)
  have spie := @confined_statusBit isa World supervisorMode Mstatus.spie (by cases isa <;> decide)
  have spp := @confined_statusBit isa World supervisorMode Mstatus.spp (by cases isa <;> decide)
  have previous : ∀ spp : BitVec 1,
      Sat (Confined supervisorMode) (setPrv (spp.setWidth 2) : IssM isa World Unit) :=
    fun spp => confined_setPrv ((by decide : ∀ b : BitVec 1, b.setWidth 2 ≤ supervisorMode) spp)
  unfold execSret returnFromSupervisorMode
  repeat refine .bind inferInstance fun _ => ?_
  infer_instance

end Returns

/-- Every instruction but the two. -/
theorem exec_confined {plat : Platform World} {instr : Instruction} {op : Mapping}
    {s t : Iss isa World} (low : LowMode s.prv) (mret : op ≠ .mret)
    (sret : s.prv = userMode → op ≠ .sret) (ran : (exec instr plat op).run s = (.ok (), t)) :
    Confined s.prv s none t := by
  cases csr : op.isCsr with
  | true => exact (confined_csr low csr).ok ran
  | false =>
    cases ret : op.isReturn with
    | false => exact ((plain_exec instr plat csr ret).ok ran).confined s.prv
    | true =>
      cases op
      case uret => exact (confined_execUret low).ok ran
      case sret =>
        have supervisor : s.prv = supervisorMode := low.resolve_left fun user => sret user rfl
        rw [supervisor]
        exact confined_execSret.ok ran
      case mret => exact absurd rfl mret
      all_goals cases ret

/-! ## Registers with two levels -/

/-- The registers that the RV64 table also shows as `pmpcfg2` and `pmpcfg3`. -/
def delegation : CsrAddr → Option Csr
  | .sedeleg => some .sedeleg
  | .sideleg => some .sideleg
  | _ => none

/-- The bits of a register that the views of level `p` expose for writing. -/
def viewed (isa : Isa) (p : PrivilegeLevel) : Csr → Word isa
  | .mstatus => exposed isa p .mstatus
  | .mie => exposed isa p .mie
  | .mip => exposed isa p .mip
  | _ => 0

/-- The address of a higher level leads to bits of that level, or past the end of the table. -/
theorem exposed_viewed {p : PrivilegeLevel} (low : LowMode p) {a : CsrAddr} {c : Csr}
    (above : p < csrPrv a.addr) (own : a.cell isa = some (.reg c)) :
    exposed isa p c = viewed isa p c ∨
      isa = .rv64 ∧ p = supervisorMode ∧ (c = .sedeleg ∨ c = .sideleg) := by
  have hidden : ¬ c.level ≤ p → exposed isa p c = viewed isa p c := by
    intro higher
    cases c
    case mstatus | mie | mip => rfl
    all_goals exact if_neg higher
  have apart : csrPrv a.addr ≤ c.level → exposed isa p c = viewed isa p c := by
    intro level
    apply hidden
    intro lower
    rw [BitVec.le_def] at level lower
    rw [BitVec.lt_def] at above
    omega
  cases a
  case pmpcfg i =>
    have machine := (by decide : ∀ i, csrPrv (CsrAddr.pmpcfg i).addr = 3) i
    unfold CsrAddr.cell registerMapping at own
    dsimp only at own
    split at own
    case isTrue past =>
      cases own
      rcases low with rfl | rfl
      · exact .inl (hidden (by decide))
      · exact .inr ⟨past.1, rfl, .inl rfl⟩
    split at own
    case isTrue past =>
      cases own
      rcases low with rfl | rfl
      · exact .inl (hidden (by decide))
      · exact .inr ⟨past.1, rfl, .inr rfl⟩
    cases own
    exact .inl (apart (by rw [machine]; exact (by decide : (3 : BitVec 2) ≤ machineMode)))
  case pmpaddr i =>
    have machine := (by decide : ∀ i, csrPrv (CsrAddr.pmpaddr i).addr = 3) i
    cases own
    exact .inl (apart (by rw [machine]; exact (by decide : (3 : BitVec 2) ≤ machineMode)))
  case cycleh | timeh | instreth | mcycleh | mtimeh | minstreth => cases isa <;> cases own
  all_goals
    cases own
  all_goals first
    | exact .inl rfl
    | exact .inl (apart (by decide))

/-- The registers with two levels stay as they are. -/
def DelegationKept (s : Iss isa World) (_ : Option Exc) (t : Iss isa World) : Prop :=
  ∀ a c, delegation a = some c → t.csrs.reg c = s.csrs.reg c

instance : Closed (@DelegationKept isa World) where
  refl _ := fun _ _ _ => rfl
  trans first second := fun a c own => (second a c own).trans (first a c own)

instance {α : Type} : Sat DelegationKept (raiseIllegalInstruction : IssM isa World α) :=
  ⟨fun _ _ _ _ => rfl⟩

instance (pc : Word isa) : Sat DelegationKept (setPc pc : IssM isa World Unit) :=
  .update fun _ _ _ _ => rfl

instance (level : PrivilegeLevel) : Sat DelegationKept (setPrv level : IssM isa World Unit) :=
  .update fun _ _ _ _ => rfl

instance {len : Nat} (f : Field len) (value : BitVec len) :
    Sat DelegationKept (writeField .mstatus f value : IssM isa World Unit) := by
  refine .update fun s a c own => ?_
  have other : c ≠ .mstatus := by
    rintro rfl
    cases a <;> cases own
  exact setCsr_reg_of_ne s other _

theorem delegationKept_execUret : Sat DelegationKept (execUret : IssM isa World Unit) := by
  unfold execUret returnFromUserMode
  repeat refine .bind inferInstance fun _ => ?_
  infer_instance

theorem delegationKept_execSret : Sat DelegationKept (execSret : IssM isa World Unit) := by
  unfold execSret returnFromSupervisorMode
  repeat refine .bind inferInstance fun _ => ?_
  infer_instance

section Delegation

variable {plat : Platform World} {instr : Instruction} {op : Mapping} {s t u : Iss isa World}
  {a : CsrAddr} {c : Csr} {old : Word isa}

/-- The value a CSR instruction leaves in a register with two levels. -/
def delegatedValue (instr : Instruction) (op : Mapping) (s : Iss isa World) (a : CsrAddr)
    (c : Csr) : Word isa :=
  maskedWrite (s.csrs.reg c) (csrResult instr op (s.csrs.reg c) (csrSource instr op s))
    (a.writeMask isa)

/-- It is the same before the instruction is fetched and after. -/
theorem Still.delegatedValue_eq {o : Option Exc} (still : Still plat s o u) :
    delegatedValue instr op u a c = delegatedValue instr op s a c := by
  have source : csrSource instr op u = csrSource instr op s := by
    cases op <;> first | rfl | exact congrFun still.regs _
  unfold delegatedValue
  rw [still.reg, source]

theorem csrResult_swap (swap : op.isCsrSwap = true) (old old' value : Word isa) :
    csrResult instr op old value = csrResult instr op old' value := by
  cases op <;> first | rfl | cases swap

theorem delegated_of_step (step : CsrStep plat instr op s old u t) (writes : CsrWrites instr op)
    (named : CsrAddr.named (instr.csr.setWidth 12) = some a) (own : delegation a = some c) :
    t.csrs.reg c = delegatedValue instr op s a c := by
  obtain ⟨-, wrote⟩ := step.wrote writes
  have reg : u.csrs.reg = s.csrs.reg := step.still.reg
  have result : csrResult instr op old (csrSource instr op s) =
      csrResult instr op (s.csrs.reg c) (csrSource instr op s) := by
    by_cases reads : CsrReads instr op
    · have got := getCsrValue_named named (step.read reads)
      cases a <;> cases own
      all_goals
        cases got
        rfl
    · exact csrResult_swap (not_not.mp fun other => reads fun both => other both.1) _ _ _
  have masked :
      (setNamedCsr (csrResult instr op old (csrSource instr op s)) a).run (link instr old u) =
        (writeMasked c (csrResult instr op old (csrSource instr op s)) (a.writeMask isa)).run
          (link instr old u) := by
    cases a <;> cases own <;> rfl
  unfold setCsrValue at wrote
  rw [named] at wrote
  have done := masked.symm.trans wrote
  cases done
  rw [setCsr_reg_self, link_csrs, reg, result]
  rfl

/-- At the supervisor level only its own address leads to such a register. -/
theorem kept_of_step (step : CsrStep plat instr op s old u t) (below : s.prv ≤ supervisorMode)
    (own : delegation a = some c)
    (other : CsrWrites instr op → CsrAddr.named (instr.csr.setWidth 12) ≠ some a) :
    t.csrs.reg c = s.csrs.reg c := by
  have reg : u.csrs.reg = s.csrs.reg := step.still.reg
  by_cases writes : CsrWrites instr op
  case neg =>
    rw [step.kept writes, link_csrs, reg]
  case pos =>
    obtain ⟨-, wrote⟩ := step.wrote writes
    have allowed := step.allowed
    unfold setCsrValue at wrote
    cases named : CsrAddr.named (instr.csr.setWidth 12) with
    | none =>
      rw [named] at wrote
      cases wrote
    | some b =>
      rw [named] at wrote
      rw [← CsrAddr.addr_of_named named] at allowed
      have written := (written_setNamedCsr b _).ok wrote
      have elsewhere : b.cell isa ≠ some (.reg c) := by
        intro shared
        have level : csrPrv b.addr ≤ supervisorMode := BitVec.le_trans allowed below
        rcases CsrAddr.register_of_cell shared with here | ⟨-, past⟩
        · refine other writes (named.trans (congrArg some ?_))
          cases a <;> cases own <;> cases b <;> first | rfl | cases here
        · cases b
          case pmpcfg i =>
            rw [(by decide : ∀ i, csrPrv (CsrAddr.pmpcfg i).addr = 3) i] at level
            exact absurd level (by decide)
          all_goals cases past
      have same : t.csrs.reg c = (link instr old u).csrs.reg c := by
        apply BitVec.eq_of_getLsbD_eq
        intro i _
        exact written.kept c i fun both => elsewhere both.1
      rw [same, link_csrs, reg]

end Delegation

/-! ## The step -/

/-- The instruction a step executes: what it has fetched and decoded. -/
def executedOp (plat : Platform World) (s : Iss isa World) : Option Mapping :=
  match (do fetch plat; decode : IssM isa World Unit).run s with
  | (.ok (), t) => some t.op
  | (.error _, _) => none

/-- Afterwards the level is not higher, what the addresses of a higher level lead to is as it
was, and the instruction was no trap return from a higher level. -/
structure PrivilegeIsolated (plat : Platform World) (s t : Iss isa World) : Prop where
  prv : t.prv ≤ s.prv
  kept : ∀ (a : CsrAddr) c i, s.prv < csrPrv a.addr → a.cell isa = some (.reg c) →
    (viewed isa s.prv c).getLsbD i = false → ¬ (c = .mstatus ∧ FpStatus isa i) →
      (t.csrs.reg c).getLsbD i = (s.csrs.reg c).getLsbD i
  mret : executedOp plat s ≠ some .mret
  sret : s.prv = userMode → executedOp plat s ≠ some .sret

/-- The next instruction changes a register with two levels. -/
def Overruns (plat : Platform World) (s : Iss isa World) : Prop :=
  isa = .rv64 ∧ s.prv = supervisorMode ∧ ∃ op instr a c, nextInstr plat s = some (op, instr) ∧
    op.isCsr = true ∧ CsrWrites instr op ∧ CsrAddr.named (instr.csr.setWidth 12) = some a ∧
      delegation a = some c ∧ delegatedValue instr op s a c ≠ s.csrs.reg c

section Step

variable {plat : Platform World} {s t u : Iss isa World}

/-- The register is changed where its machine-level address shows it. -/
theorem not_overruns (isolated : PrivilegeIsolated plat s t)
    (decoded : (do fetch plat; decode : IssM isa World Unit).run s = (.ok (), u))
    (executed : (exec u.instr plat u.op).run u = (.ok (), t)) : ¬ Overruns plat s := by
  rintro ⟨rfl, supervisor, op, instr, a, c, next, csr, writes, named, own, changed⟩
  cases (nextInstr_of_decoded decoded).symm.trans next
  have still : Still plat s none u := Sat.ok inferInstance decoded
  obtain ⟨old, v, step⟩ := csrStep_exec csr executed
  have left := delegated_of_step step writes named own
  refine changed ?_
  rw [← still.delegatedValue_eq, ← left]
  apply BitVec.eq_of_getLsbD_eq
  intro i _
  have above : ∀ j : Fin 4, s.prv < csrPrv (CsrAddr.pmpcfg j).addr := by
    rw [supervisor]
    decide
  cases a <;> cases own
  case refl.sedeleg.refl =>
    exact isolated.kept (.pmpcfg 2) .sedeleg i (above 2) rfl (by simp [viewed]) nofun
  case refl.sideleg.refl =>
    exact isolated.kept (.pmpcfg 3) .sideleg i (above 3) rfl (by simp [viewed]) nofun

/-- An instruction that does not change them leaves them as they were. -/
theorem delegation_kept (supervisor : s.prv = supervisorMode) (core : isa = .rv64)
    (decoded : (do fetch plat; decode : IssM isa World Unit).run s = (.ok (), u))
    (executed : (exec u.instr plat u.op).run u = (.ok (), t)) (mret : u.op ≠ .mret)
    (fits : ¬ Overruns plat s) : DelegationKept s none t := by
  intro a c own
  have still : Still plat s none u := Sat.ok inferInstance decoded
  have below : u.prv ≤ supervisorMode := by rw [still.prv, supervisor]; exact BitVec.le_refl _
  rw [← still.reg]
  cases csr : u.op.isCsr with
  | true =>
    obtain ⟨old, v, step⟩ := csrStep_exec csr executed
    by_cases here : CsrWrites u.instr u.op ∧ CsrAddr.named (u.instr.csr.setWidth 12) = some a
    · rw [delegated_of_step step here.1 here.2 own]
      rw [still.delegatedValue_eq, still.reg]
      exact not_not.mp fun changed => fits ⟨core, supervisor, u.op, u.instr, a, c,
        nextInstr_of_decoded decoded, csr, here.1, here.2, own, changed⟩
    · exact kept_of_step step below own fun writes named => here ⟨writes, named⟩
  | false =>
    cases ret : u.op.isReturn with
    | false =>
      have plain := (plain_exec u.instr plat csr ret).ok executed
      refine plain.reg c ?_ ?_
      · rintro rfl
        cases a <;> cases own
      · rintro rfl
        cases a <;> cases own
    | true =>
      cases op : u.op <;> rw [op] at ret executed mret
      case uret => exact delegationKept_execUret.ok executed a c own
      case sret => exact delegationKept_execSret.ok executed a c own
      case mret => exact absurd rfl mret
      all_goals cases ret

/-- Below machine mode a step that raises no trap is isolated exactly if its instruction is
neither `MRET` nor, in user mode, `SRET`, and changes no register with two levels. -/
theorem execStep_isolated_iff (low : LowMode s.prv) (ran : (execStep plat).run s = (.ok (), t)) :
    PrivilegeIsolated plat s t ↔
      nextOp plat s ≠ some .mret ∧ (s.prv = userMode → nextOp plat s ≠ some .sret) ∧
        ¬ Overruns plat s := by
  obtain ⟨u, decoded, executed⟩ := execStep_ok ran
  have op : executedOp plat s = some u.op := by
    unfold executedOp
    rw [decoded]
  have next : nextOp plat s = some u.op := by
    unfold nextOp
    rw [nextInstr_of_decoded decoded]
    rfl
  rw [next]
  constructor
  · intro isolated
    have mret := isolated.mret
    have sret := isolated.sret
    rw [op] at mret sret
    exact ⟨mret, sret, not_overruns isolated decoded executed⟩
  · rintro ⟨mret, sret, fits⟩
    have still : Still plat s none u := Sat.ok inferInstance decoded
    have level : LowMode u.prv := still.prv.symm ▸ low
    have body := exec_confined level (fun same => mret (congrArg some same))
      (fun user same => sret (still.prv ▸ user) (congrArg some same)) executed
    rw [still.prv] at body
    have whole : Confined s.prv s none t := Closed.trans (still.plain.confined s.prv) body
    have other : u.op ≠ .mret := fun same => mret (congrArg some same)
    rw [← op] at mret sret
    refine ⟨whole.prv (Nat.le_refl _), fun a c i above own hidden fp => ?_, mret, sret⟩
    rcases exposed_viewed low above own with same | ⟨core, supervisor, shared⟩
    · exact whole.kept c i (same ▸ hidden) fp
    · have kept := delegation_kept supervisor core decoded executed other fits
      rcases shared with rfl | rfl
      · rw [kept .sedeleg .sedeleg rfl]
      · rw [kept .sideleg .sideleg rfl]

end Step

/-- A supervisor that executes `instr` at the start of memory. -/
def supervisorAt (instr : BitVec 32) : Iss .rv64 Flat :=
  { everywhere instr with prv := supervisorMode }

/-- A `SRET` in supervisor mode. -/
theorem execStep_isolated_sret :
    PrivilegeIsolated Flat.platform (supervisorAt 0x10200073)
      ((execStep Flat.platform).run (supervisorAt 0x10200073)).2 :=
  (execStep_isolated_iff (.inr rfl) (Prod.ext (by decide) rfl)).mpr ⟨by decide, by decide, by
    rintro ⟨-, -, op, instr, a, c, next, csr, -⟩
    have sret : nextOp Flat.platform (supervisorAt 0x10200073) = some .sret := by decide
    cases (congrArg (Option.map Prod.fst) next).symm.trans sret
    cases csr⟩

/-- The first `MRET` out of reset leads to user mode; the second one is executed there and
sets `mstatus.mie`. -/
theorem mret_in_user_mode : ¬ ∀ s t : Iss .rv64 Flat, Reachable Flat.platform s → LowMode s.prv →
    (execStep Flat.platform).run s = (.ok (), t) → PrivilegeIsolated Flat.platform s t := by
  intro isolated
  have first : Reachable Flat.platform ((runStep Flat.platform).run (everywhere 0x30200073)).2 :=
    ⟨0, false, 0, 0, _, false, Run.start.next trivial (by decide)⟩
  have step := isolated _ _ first (.inl (by decide)) (Prod.ext (by decide) rfl)
  have changed := step.kept .mstatus .mstatus 3 (by decide) rfl (by decide) (by decide)
  exact absurd changed (by decide)

end Iss

end RiscvVp
