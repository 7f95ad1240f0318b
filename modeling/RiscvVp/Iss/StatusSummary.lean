/-
# RiscvVp.Iss.StatusSummary -- the summary bit of `mstatus`

`sd` says that `fs` or `xs` is dirty, and an operating system that switches contexts looks at
it alone.  The FP instructions set it together with `fs`.  A write to `mstatus` or `sstatus`
sets the three fields one by one, as the source notes at `get_csr_value`: the bit is right as
long as what is written is.
-/
import RiscvVp.Iss.FpContext

namespace RiscvVp

set_option autoImplicit false

open Lib Transition

/-- The state of what further extensions add. -/
def Mstatus.xs : Field 2 := ⟨15⟩

namespace Iss

variable {World : Type}

/-! ## The bit -/

def Summarised (x : Word .rv64) : Prop :=
  (Mstatus.sd .rv64).get x = 1#1 ↔ Mstatus.fs.get x = 3#2 ∨ Mstatus.xs.get x = 3#2

instance (x : Word .rv64) : Decidable (Summarised x) := inferInstanceAs (Decidable (_ ↔ _))

/-- The bits of the three fields. -/
def summaryBits : List Nat := [13, 14, 15, 16, 63]

theorem summarised_congr {x y : Word .rv64}
    (same : ∀ i ∈ summaryBits, x.getLsbD i = y.getLsbD i) : Summarised x ↔ Summarised y := by
  have fields : ∀ {len : Nat} (f : Field len), (∀ i, f.Covers i → i ∈ summaryBits) → f.get x = f.get y :=
    fun f inside => Field.get_congr fun i covered => same i (inside i covered)
  have sd : ∀ i, (Mstatus.sd .rv64).Covers i → i ∈ summaryBits := by
    rintro i ⟨low, high⟩
    have at63 : i = 63 := Nat.le_antisymm (Nat.le_of_lt_succ high) low
    rw [at63]
    decide
  have fs : ∀ i, Mstatus.fs.Covers i → i ∈ summaryBits := by
    rintro i ⟨low, high⟩
    have bits : i = 13 ∨ i = 14 := by
      change 13 ≤ i at low
      change i < 15 at high
      omega
    rcases bits with rfl | rfl <;> decide
  have xs : ∀ i, Mstatus.xs.Covers i → i ∈ summaryBits := by
    rintro i ⟨low, high⟩
    have bits : i = 15 ∨ i = 16 := by
      change 15 ≤ i at low
      change i < 17 at high
      omega
    rcases bits with rfl | rfl <;> decide
  unfold Summarised
  rw [fields _ sd, fields _ fs, fields _ xs]

/-- A mask that has the three fields. -/
theorem summarised_and {mask : Word .rv64} (whole : ∀ i ∈ summaryBits, mask.getLsbD i = true)
    (x : Word .rv64) : Summarised (x &&& mask) ↔ Summarised x := by
  apply summarised_congr
  intro i among
  rw [BitVec.getLsbD_and, whole i among, Bool.and_true]

theorem summarised_maskedWrite {mask : Word .rv64} (whole : ∀ i ∈ summaryBits, mask.getLsbD i = true)
    (x value : Word .rv64) : Summarised (maskedWrite x value mask) ↔ Summarised value := by
  apply summarised_congr
  intro i among
  rw [getLsbD_maskedWrite, whole i among, if_pos rfl]

/-! ## What keeps it -/

def Summing (s : Iss .rv64 World) (_ : Option Exc) (t : Iss .rv64 World) : Prop :=
  Summarised (s.csrs.reg .mstatus) → Summarised (t.csrs.reg .mstatus)

instance : Closed (@Summing World) where
  refl _ := id
  trans first second := second ∘ first

theorem summing_of_same {s t : Iss .rv64 World} {o : Option Exc}
    (same : t.csrs.reg .mstatus = s.csrs.reg .mstatus) : Summing s o t := fun before => same ▸ before

theorem summing_of_high {s t : Iss .rv64 World} {o : Option Exc} (same : ∀ i, 13 ≤ i →
    (t.csrs.reg .mstatus).getLsbD i = (s.csrs.reg .mstatus).getLsbD i) : Summing s o t := by
  have high : ∀ i ∈ summaryBits, 13 ≤ i := by decide
  exact (summarised_congr fun i among => same i (high i among)).mpr

instance : Indifferent (@Summing World) where
  trap _ _ _ _ := id
  rethrow _ _ _ _ step := step
  abort _ _ _ := id
  scratch _ _ _ _ := id
  move _ _ := id
  cycle := ⟨fun _ => id⟩
  world _ _ := id
  stuck _ _ _ _ := id
  counter _ k _ _ := summing_of_same (by cases k <;> rfl)
  reservation _ _ _ := id
  mode _ _ _ := id
  csr s _ value own := summing_of_same (setCsr_trap s own rfl value)
  status s value same := summing_of_high fun i high => by
    rw [setCsr_reg_self]
    exact same i high
  refused _ _ _ _ := id

instance : Checks (@Summing World) where
  issue _ _ _ := id

instance : Writes (@Summing World) where
  reg _ _ _ := id
  exit _ := id

/-- A dirty context is summarised. -/
theorem FpDirty.summarised {s : Iss .rv64 World} (dirty : FpDirty s) :
    Summarised (s.csrs.reg .mstatus) := ⟨fun _ => .inl dirty.1, fun _ => dirty.2⟩

instance : FpWrites (@Summing World) where
  reg _ _ _ := id
  flags _ _ := id
  dirty := ⟨fun s _ => (fpSetDirty_dirty s).summarised⟩
  accrue _ := .update fun s => summing_of_same (setCsr_reg_of_ne s (by decide) _)

/-! ## Writes of a CSR -/

/-- The two addresses that show the fields. -/
def ShowsStatus (a : CsrAddr) : Prop := a = .mstatus ∨ a = .sstatus

/-- What is read at either. -/
def statusRead (a : CsrAddr) (s : Iss .rv64 World) : Word .rv64 :=
  s.csrs.reg .mstatus &&& if a = .mstatus then Mask.mstatusRead .rv64 else Mask.sstatusRead .rv64

theorem run_statusRead (plat : Platform World) {a : CsrAddr} (status : ShowsStatus a)
    (s : Iss .rv64 World) : (getNamedCsr plat a).run s = (.ok (statusRead a s), s) := by
  rcases status with rfl | rfl <;> rfl

theorem summarised_statusRead {a : CsrAddr} (s : Iss .rv64 World) :
    Summarised (statusRead a s) ↔ Summarised (s.csrs.reg .mstatus) := by
  unfold statusRead
  split <;> exact summarised_and (by decide) _

theorem summing_setNamedCsr {a : CsrAddr} {value : Word .rv64}
    (right : ShowsStatus a → Summarised value) : Sat Summing (setNamedCsr value a : IssM .rv64 World Unit) where
  holds s := by
    by_cases status : ShowsStatus a
    · have written := right status
      rcases status with rfl | rfl
      · exact fun _ => (summarised_maskedWrite (by decide) (s.csrs.reg .mstatus) value).mpr written
      · exact fun _ => (summarised_maskedWrite (by decide) (s.csrs.reg .mstatus) value).mpr written
    · have step := (written_setNamedCsr a value).holds s
      refine summing_of_high fun i high => step.kept .mstatus i ?_
      rintro ⟨own, writable⟩
      rcases CsrAddr.cell_mstatus own with rfl | rfl | rfl
      · exact status (.inl rfl)
      · exact status (.inr rfl)
      · have low : ∀ i < 64, (CsrAddr.ustatus.writeMask .rv64).getLsbD i = true → i < 13 := by decide
        exact absurd (low i (BitVec.lt_of_getLsbD writable) writable) (Nat.not_lt.mpr high)

/-- The instruction that lies ahead does not write `mstatus`, through either address, so that
the bit is wrong. -/
def SdCareful (plat : Platform World) (s : Iss .rv64 World) : Prop :=
  ∀ op instr a, nextInstr plat (beforeExec plat s) = some (op, instr) → op.isCsr = true →
    CsrWrites instr op → ShowsStatus a → instr.csr.setWidth 12 = a.addr → csrPrv a.addr ≤ s.prv →
    Summarised (csrResult instr op (statusRead a s) (csrSource instr op s))

section Step

variable {plat : Platform World}

/-- What is written is made of what was read. -/
theorem csrResult_read {instr : Instruction} {op : Mapping} {a : CsrAddr} {s u : Iss .rv64 World}
    {old : Word .rv64} (status : ShowsStatus a) (addr : instr.csr.setWidth 12 = a.addr)
    (read : CsrRead plat instr op s old u) (v : Word .rv64) :
    csrResult instr op old v = csrResult instr op (statusRead a s) v := by
  by_cases reads : CsrReads instr op
  · have named : CsrAddr.named (instr.csr.setWidth 12) = some a := by
      rw [addr]
      rcases status with rfl | rfl <;> decide
    have got := getCsrValue_named named (read.read reads)
    rw [run_statusRead plat status] at got
    cases got
    rfl
  · have swap : op.isCsrSwap = true := (not_not.mp reads).1
    cases op <;> first | rfl | cases swap

theorem csrSource_congr {instr : Instruction} {op : Mapping} {s t : Iss .rv64 World}
    (regs : t.regs = s.regs) : csrSource instr op t = csrSource instr op s := by
  cases op
  case csrrw | csrrs | csrrc => exact congrFun regs _
  all_goals rfl

theorem summing_execStep {s : Iss .rv64 World} (careful : SdCareful plat s) :
    SatAt Summing (execStep plat) (beforeExec plat s) := by
  refine satAt_execStep inferInstance fun u still prepared => ?_
  refine satAt_exec plat Summing (fun csr => ?_) fun float => .of_sat (sat_exec_float _ plat float)
  refine satAt_exec_csr Summing (fun {old v} read writes _ => ?_) csr
  rcases setCsrValue_cases (u.instr.csr.setWidth 12)
      (csrResult u.instr u.op old (csrSource u.instr u.op u)) with illegal | ⟨a, addr, write⟩
  · rw [illegal]
    exact .of_sat inferInstance
  rw [write]
  refine .of_sat (summing_setNamedCsr fun status => ?_)
  have next : nextInstr plat (beforeExec plat s) = some (u.op, u.instr) := nextInstr_of_decoded prepared
  have level : csrPrv a.addr ≤ s.prv := by
    have allowed := read.allowed
    rw [addr]
    rwa [still.prv] at allowed
  have right := careful u.op u.instr a next csr writes status addr.symm level
  have before : statusRead a u = statusRead a s := by
    unfold statusRead
    rw [reg_of_decoded still (by decide)]
  have source : csrSource u.instr u.op u = csrSource u.instr u.op s := csrSource_congr still.regs
  rw [csrResult_read status addr.symm read, before, source]
  exact right

theorem summing_runStep {s : Iss .rv64 World} (careful : SdCareful plat s) :
    SatAt Summing (runStep plat) s := by
  have performance := sat_performance plat (@Summing World) (Locks.counter plat) fun _ _ => id
  exact (stepParts_of_modes plat Summing performance id).runStep (summing_execStep careful)

/-- The bit is right, as it is read at either address. -/
def SdTracked (plat : Platform World) (s : Iss .rv64 World) : Prop :=
  ∀ a, ShowsStatus a → ∀ x u, (getNamedCsr plat a).run s = (.ok x, u) → Summarised x

theorem sdTracked_of_run {s : Iss .rv64 World} (reached : ReachableBy plat (SdCareful plat) s) :
    SdTracked plat s := by
  have inv : Summarised (s.csrs.reg .mstatus) := by
    refine @ReachableBy.invariant _ _ plat _ (fun s => Summarised (s.csrs.reg .mstatus)) ?_ ?_ ?_ s reached
    · intros
      show Summarised (mstatusInit .rv64)
      decide
    · exact fun right careful ran => (summing_runStep careful).ok ran right
    · exact fun _ _ _ _ right => right
  intro a status x u read
  rw [run_statusRead plat status] at read
  cases read
  exact (summarised_statusRead s).mpr inv

end Step

/-- `lui x1, 6` and `csrrs x0, mstatus, x1`, over and over: `fs` becomes dirty, and `sd` stays. -/
def dirtying : Iss .rv64 Flat :=
  reset 0 false 0 0 ⟨repeating (0x3000a073#32 ++ 0x000060b7#32), 0, none⟩

/-- `csrrsi x0, mstatus, 8` sets `mie`, and `fs` stays off. -/
theorem csrrsi_sdTracked : SdTracked Flat.platform
    ((runStep Flat.platform).run (everywhere 0x30046073)).2 := by
  have next : nextInstr Flat.platform (beforeExec Flat.platform (everywhere 0x30046073)) =
      some (.csrrsi, 0x30046073) := by decide
  refine sdTracked_of_run ⟨0, false, 0, 0, _, false, .step .start ?_ (Prod.ext (by decide) rfl)⟩
  intro op instr a found csr writes status
  cases next.symm.trans found
  rcases status with rfl | rfl
  · exact fun _ _ => by decide
  · exact fun same => absurd same (by decide)

theorem csrrs_not_sdTracked : ¬ ∀ s : Iss .rv64 Flat, Reachable Flat.platform s →
    SdTracked Flat.platform s := by
  intro tracked
  have first : Run Flat.platform (fun _ => True) dirtying ((runStep Flat.platform).run dirtying).2 :=
    Run.start.next trivial (by decide)
  have second := first.next trivial (by decide)
  have right := tracked _ ⟨0, false, 0, 0, _, false, second⟩ .mstatus (.inl rfl) _ _ rfl
  exact absurd right (by decide)

end Iss

end RiscvVp
