/-
# RiscvVp.Iss.CsrLaw -- the law of the CSR instructions

`CSRRW`, `CSRRS`, `CSRRC` and their immediate forms are one law: the old value goes to
`rd`, and what `set_csr_value` makes of a new one computed from the old value and the
operand is the new state.  The six cases of the switch follow it with one exception:
`CSRRCI` of the RV64 core complements its immediate as a 32-bit number, so it clears the
upper half of the register too.
-/
import RiscvVp.Instr.BitMoves
import RiscvVp.Iss.Satp

namespace RiscvVp

set_option autoImplicit false

open Lib

/-- The immediate is the field of `rs1`, five bits of it. -/
theorem Instruction.zimm_eq (instr : Instruction) :
    instr.zimm = (instr.extractLsb' 15 5).setWidth 32 := by
  have moves : OrHom Instruction.zimm := by
    unfold Instruction.zimm bitRange
    infer_instance
  have field : OrHom fun x : BitVec 32 => (x.extractLsb' 15 5).setWidth 32 := inferInstance
  exact @OrHom.ext 32 32 Instruction.zimm _ moves field (by decide) instr

namespace Iss

variable {isa : Isa} {World : Type}

/-! ## The law -/

/-- The operand: a register, or the immediate extended with zeros. -/
def csrOperand (instr : Instruction) : Mapping → Iss isa World → Word isa
  | .csrrw | .csrrs | .csrrc => fun s => s.regs (regIndex instr.rs1)
  | _ => fun _ => (instr.extractLsb' 15 5).setWidth isa.xlen

/-- The new value: the operand itself, or the old value with the bits of the operand set
or cleared. -/
def csrNewValue : Mapping → Word isa → Word isa → Word isa
  | .csrrs | .csrrsi => fun old src => old ||| src
  | .csrrc | .csrrci => fun old src => old &&& ~~~src
  | _ => fun _ src => src

/-- `t` is what the law makes of `s`. -/
def Obeys (plat : Platform World) (instr : Instruction) (op : Mapping) (s t : Iss isa World) : Prop :=
  ∃ old u, CsrRead plat instr op s old u ∧
    (CsrWrites instr op →
      (setCsrValue (instr.csr.setWidth 12) (csrNewValue op old (csrOperand instr op s))).run
        (link instr old u) = (.ok (), t)) ∧
    (¬ CsrWrites instr op → t = link instr old u)

/-- A bit of the upper half that the instruction loses: it is set, and the address can
write it. -/
structure Slips (plat : Platform World) (instr : Instruction) (op : Mapping) (s : Iss isa World) :
    Prop where
  core : isa = .rv64
  clears : op = .csrrci
  writes : regIndex instr.rs1 ≠ 0
  permitted : (isInvalidCsrAccess (instr.csr.setWidth 12) true).run s = (.ok false, s)
  live : ∃ a old u i, CsrAddr.named (instr.csr.setWidth 12) = some a ∧
    (getCsrValue plat (instr.csr.setWidth 12)).run s = (.ok old, u) ∧
    32 ≤ i ∧ (a.writeMask isa).getLsbD i = true ∧ old.getLsbD i = true

section Operand

variable (instr : Instruction)

theorem csrSource_eq (op : Mapping) (s : Iss isa World) :
    csrSource instr op s = csrOperand instr op s := by
  have immediate : instr.zimm.setWidth isa.xlen = (instr.extractLsb' 15 5).setWidth isa.xlen := by
    rw [Instruction.zimm_eq]
    cases isa <;> rfl
  cases op
  case csrrw | csrrs | csrrc => rfl
  all_goals exact immediate

theorem csrResult_eq {op : Mapping} (other : ¬ (isa = .rv64 ∧ op = .csrrci)) (old : Word isa)
    (s : Iss isa World) :
    csrResult instr op old (csrSource instr op s) = csrNewValue op old (csrOperand instr op s) := by
  rw [← csrSource_eq]
  cases op
  case csrrci =>
    cases isa with
    | rv64 => exact absurd ⟨rfl, rfl⟩ other
    | rv32 =>
      show old &&& (~~~instr.zimm).setWidth 32 = old &&& ~~~instr.zimm.setWidth 32
      rw [BitVec.setWidth_eq, BitVec.setWidth_eq]
  all_goals rfl

/-- `CSRRCI` of the RV64 core: the lower half is as it should be, the upper half is gone. -/
theorem getLsbD_csrrci (old : Word .rv64) (s : Iss .rv64 World) (i : Nat) :
    (csrResult instr .csrrci old (csrSource instr .csrrci s)).getLsbD i =
      (decide (i < 32) &&
        (csrNewValue .csrrci old (csrOperand instr .csrrci s)).getLsbD i) := by
  rw [← csrSource_eq]
  show (old &&& (~~~instr.zimm).setWidth 64).getLsbD i =
    (decide (i < 32) && (old &&& ~~~instr.zimm.setWidth 64).getLsbD i)
  simp only [BitVec.getLsbD_and, BitVec.getLsbD_not, BitVec.getLsbD_setWidth]
  by_cases low : i < 32
  · have inside : i < 64 := by omega
    simp [low, inside]
  · simp [low]

/-- The law keeps the upper half. -/
theorem getLsbD_csrNewValue_high (old : Word .rv64) (s : Iss .rv64 World) {i : Nat} (high : 32 ≤ i) :
    (csrNewValue .csrrci old (csrOperand instr .csrrci s)).getLsbD i = old.getLsbD i := by
  rw [← csrSource_eq]
  show (old &&& ~~~instr.zimm.setWidth 64).getLsbD i = old.getLsbD i
  have clear : instr.zimm.getLsbD i = false := BitVec.getLsbD_of_ge _ i high
  simp only [BitVec.getLsbD_and, BitVec.getLsbD_not, BitVec.getLsbD_setWidth, clear]
  by_cases inside : i < 64
  · simp [inside]
  · simp [BitVec.getLsbD_of_ge old i (Nat.le_of_not_lt inside)]

end Operand

/-! ## What a write depends on -/

/-- Of the upper half only the bits of the write mask matter to an address. -/
theorem setNamedCsr_congr {a : CsrAddr} {value value' : Word isa}
    (low : ∀ i < 32, value.getLsbD i = value'.getLsbD i)
    (high : ∀ i, 32 ≤ i → (a.writeMask isa).getLsbD i = true → value.getLsbD i = value'.getLsbD i) :
    (setNamedCsr value a : IssM isa World Unit) = setNamedCsr value' a := by
  have bits : ∀ i, (a.writeMask isa).getLsbD i = true → value.getLsbD i = value'.getLsbD i := by
    intro i writable
    by_cases below : i < 32
    · exact low i below
    · exact high i (Nat.le_of_not_lt below) writable
  have masked : ∀ c, (writeMasked c value (a.writeMask isa) : IssM isa World Unit) =
      writeMasked c value' (a.writeMask isa) := by
    intro c
    unfold writeMasked
    congr
    funext s
    congr 1
    apply BitVec.eq_of_getLsbD_eq
    intro i _
    rw [getLsbD_maskedWrite, getLsbD_maskedWrite]
    split
    case isTrue writable => exact bits i writable
    case isFalse => rfl
  have field : ∀ {len : Nat}, len ≤ 32 → value.setWidth len = value'.setWidth len := by
    intro len short
    apply BitVec.eq_of_getLsbD_eq
    intro i bound
    rw [BitVec.getLsbD_setWidth, BitVec.getLsbD_setWidth, low i (by omega)]
  have whole : a.writeMask isa = BitVec.allOnes isa.xlen → value = value' := by
    intro all
    apply BitVec.eq_of_getLsbD_eq
    intro i bound
    exact bits i (by rw [all, BitVec.getLsbD_allOnes, decide_eq_true bound])
  cases a
  case mtvec | stvec | utvec | mstatus | sstatus | ustatus | mip | sip | uip | mie | sie | uie |
      mideleg | medeleg | sideleg | sedeleg | mcounteren | scounteren | mcountinhibit | fcsr =>
    exact masked _
  case satp =>
    unfold setNamedCsr writeSatp
    rw [show Mask.satp isa = CsrAddr.satp.writeMask isa from rfl, masked]
  case misa | hpmcounter | mhpmcounter | mhpmevent => rfl
  case fflags =>
    unfold setNamedCsr
    rw [@field 5 (by decide)]
  case frm =>
    unfold setNamedCsr
    rw [@field 3 (by decide)]
  all_goals rw [whole rfl]

/-! ## Where a written bit of the upper half is found again -/

section High

variable {a : CsrAddr} {value : Word .rv64} {w t : Iss .rv64 World} {i : Nat}

/-- The bit is in the cell of the address. -/
def Arrived (a : CsrAddr) (value : Word .rv64) (i : Nat) (t : Iss .rv64 World) : Prop :=
  ∃ cell, a.cell .rv64 = some cell ∧ (t.csrs.readCell cell).getLsbD i = value.getLsbD i

theorem arrived_masked {c : Csr} {mask : Word .rv64} (own : a.cell .rv64 = some (.reg c))
    (writable : mask.getLsbD i = true)
    (ran : (writeMasked c value mask).run w = (.ok (), t)) : Arrived a value i t := by
  cases ran
  refine ⟨.reg c, own, ?_⟩
  show ((w.setCsr c _).csrs.reg c).getLsbD i = _
  rw [setCsr_reg_self, getLsbD_maskedWrite, if_pos writable]

/-- The halves of the counters are addresses of the RV32 core. -/
theorem registerMapping_rv64_ne_high (a : CsrAddr) (k : Counter) :
    registerMapping .rv64 a ≠ some (.counterHigh k) := by
  cases a
  case pmpcfg i =>
    have whole : ∀ i : Fin 4, ∀ k, registerMapping .rv64 (.pmpcfg i) ≠ some (.counterHigh k) := by
      intro i k mapped
      unfold registerMapping at mapped
      dsimp only at mapped
      split at mapped
      · cases mapped
      · split at mapped <;> cases mapped
    exact whole i k
  all_goals exact nofun

theorem counter_writeCell (csrs : CsrTable .rv64) (k : Counter) (value : Word .rv64) :
    (csrs.writeCell (.counter k) value).readCell (.counter k) = value := by
  have stored : (csrs.writeCell (.counter k) value).counter k =
      maskedWrite (csrs.counter k) value (BitVec.allOnes 64) := by
    cases k <;> rfl
  show ((csrs.writeCell (.counter k) value).counter k).setWidth 64 = value
  rw [stored, BitVec.setWidth_eq]
  apply BitVec.eq_of_getLsbD_eq
  intro i bound
  rw [getLsbD_maskedWrite, BitVec.getLsbD_allOnes, decide_eq_true bound, if_pos rfl]

theorem arrived_default (own : a.cell .rv64 = registerMapping .rv64 a)
    (ran : (defaultWrite a value).run w = (.ok (), t)) : Arrived a value i t := by
  unfold defaultWrite at ran
  cases mapped : registerMapping .rv64 a with
  | none =>
    rw [mapped] at ran
    cases ran
  | some cell =>
    rw [mapped] at ran own
    cases ran
    refine ⟨cell, own, ?_⟩
    cases cell with
    | reg c =>
      show ((w.setCsr c value).csrs.reg c).getLsbD i = _
      rw [setCsr_reg_self]
    | counter k => rw [counter_writeCell]
    | counterHigh k => exact absurd mapped (registerMapping_rv64_ne_high a k)

/-- The bits of `satp` arrive when the mode is one that the core takes, or the one that it has. -/
theorem arrived_satp (writable : (Mask.satp .rv64).getLsbD i = true)
    (mode : Satp.Supported (Satp.mode value) ∨ Satp.mode value = Satp.mode (w.csrs.reg .satp)) :
    Arrived .satp value i (w.setCsr .satp (satpWritten (w.csrs.reg .satp) value)) := by
  refine ⟨.reg .satp, rfl, ?_⟩
  show ((w.setCsr .satp _).csrs.reg .satp).getLsbD i = _
  rw [setCsr_reg_self, getLsbD_satpWritten]
  by_cases below : Satp.Supported (Satp.mode value) ∨ i < 60
  · rw [if_pos ⟨writable, below⟩]
  · rw [if_neg fun both => below both.2]
    have bound : i < 64 := BitVec.lt_of_getLsbD writable
    have same : Satp.modeField.get value = Satp.modeField.get (w.csrs.reg .satp) :=
      BitVec.eq_of_toNat_eq (mode.resolve_left fun supported => below (.inl supported))
    have bit := congrArg (fun x => x.getLsbD (i - 60)) same
    have high : 60 ≤ i := Nat.le_of_not_lt fun low => below (.inr low)
    simp only [Field.getLsbD_get] at bit
    rw [show Satp.modeField.lo + (i - 60) = i from Nat.add_sub_cancel' high,
      decide_eq_true (by omega : i - 60 < 4)] at bit
    simpa using bit.symm

/-- A bit of the upper half that is set and writable is where a write puts it. -/
theorem arrived_setNamedCsr {plat : Platform World} {s u : Iss .rv64 World} {old : Word .rv64}
    (got : (getNamedCsr plat a).run s = (.ok old, u)) (set : old.getLsbD i = true) (high : 32 ≤ i)
    (writable : (a.writeMask .rv64).getLsbD i = true)
    (mode : a = .satp → Satp.Supported (Satp.mode value) ∨
      Satp.mode value = Satp.mode (w.csrs.reg .satp))
    (ran : (setNamedCsr value a).run w = (.ok (), t)) : Arrived a value i t := by
  have bound : i < 64 := BitVec.lt_of_getLsbD writable
  have zero : old ≠ 0 := by
    rintro rfl
    simp at set
  have aligned : ∀ {c : Csr}, a.cell .rv64 = some (.reg c) →
      (do writeMasked c value (← Exec.read pcAlignmentMask)).run w = (.ok (), t) →
      Arrived a value i t := by
    intro c own ran
    rw [Exec.run_read_bind] at ran
    refine arrived_masked own ?_ ran
    have upper : ∀ i < 64, 32 ≤ i → (~~~1 : Word .rv64).getLsbD i = true ∧
        (~~~3 : Word .rv64).getLsbD i = true := by decide
    unfold pcAlignmentMask
    split
    · exact (upper i bound high).1
    · exact (upper i bound high).2
  have narrow : ∀ {mask : Word .rv64}, (∀ i < 64, 32 ≤ i → mask.getLsbD i = false) →
      mask.getLsbD i = true → Arrived a value i t := by
    intro mask low writable
    rw [low i bound high] at writable
    cases writable
  cases a
  case satp =>
    unfold setNamedCsr at ran
    dsimp only at ran
    rw [run_readField_bind] at ran
    split at ran
    · cases ran
    · rw [run_writeSatp_rv64] at ran
      cases ran
      exact arrived_satp writable (mode rfl)
  case mepc | sepc | uepc => exact aligned rfl ran
  case mtvec | stvec | utvec | mstatus | sstatus => exact arrived_masked rfl writable ran
  case misa | ustatus | mip | sip | uip | mie | sie | uie | mideleg | medeleg | sideleg | sedeleg |
      mcounteren | scounteren | mcountinhibit | fcsr | fflags | frm =>
    exact narrow (by decide) writable
  case hpmcounter | mhpmcounter | mhpmevent =>
    cases got
    exact absurd rfl zero
  case cycleh | timeh | instreth | mcycleh | mtimeh | minstreth | tselect | tdata1 | tdata2 | tdata3 |
      dcsr | dpc | dscratch0 | dscratch1 | hpmcounterh | mhpmcounterh => cases ran
  all_goals exact arrived_default rfl ran

end High

/-! ## The instructions -/

section Law

variable {plat : Platform World} {instr : Instruction} {op : Mapping} {s t : Iss isa World}

/-- Everything but `CSRRCI` of the RV64 core. -/
theorem obeys_of_other (csr : op.isCsr = true) (other : ¬ (isa = .rv64 ∧ op = .csrrci))
    (ran : (exec instr plat op).run s = (.ok (), t)) : Obeys plat instr op s t := by
  obtain ⟨old, u, step⟩ := csrStep_exec csr ran
  refine ⟨old, u, step.toCsrRead, fun writes => ?_, step.kept⟩
  rw [← csrResult_eq instr other]
  exact (step.wrote writes).2

theorem execCsrModify_permitted {src : Iss isa World → Word isa} {f : Word isa → Word isa → Word isa}
    (ran : (execCsrModify instr plat (Exec.read src) f).run s = (.ok (), t)) :
    (isInvalidCsrAccess (instr.csr.setWidth 12) (decide (regIndex instr.rs1 ≠ 0))).run s =
      (.ok false, s) := by
  unfold execCsrModify at ran
  obtain ⟨invalid, u, checked, body⟩ := Exec.run_bind_eq_ok.mp ran
  cases invalid with
  | true => cases body
  | false =>
    obtain ⟨rfl, -⟩ := isInvalidCsrAccess_passed checked
    exact checked

end Law

section Clear

variable {plat : Platform World} {instr : Instruction} {s t : Iss .rv64 World}

/-- Without a live bit in the upper half the lost bits do not matter. -/
theorem obeys_of_intact (intact : ¬ Slips plat instr .csrrci s)
    (ran : (exec instr plat .csrrci).run s = (.ok (), t)) : Obeys plat instr .csrrci s t := by
  obtain ⟨old, u, step⟩ := csrStep_exec rfl ran
  refine ⟨old, u, step.toCsrRead, fun writes => ?_, step.kept⟩
  have nonzero : regIndex instr.rs1 ≠ 0 := writes.resolve_left nofun
  rw [exec_csr_modify rfl rfl] at ran
  have permitted := execCsrModify_permitted ran
  rw [decide_eq_true nonzero] at permitted
  have got := step.read (fun both => nomatch both.1)
  have wrote := (step.wrote writes).2
  unfold setCsrValue at wrote ⊢
  cases named : CsrAddr.named (instr.csr.setWidth 12) with
  | none =>
    rw [named] at wrote
    cases wrote
  | some a =>
    rw [named] at wrote
    rw [← wrote]
    refine congrArg (fun m => Exec.run m _) (setNamedCsr_congr (fun i low => ?_) fun i high writable => ?_)
    · rw [getLsbD_csrrci, decide_eq_true low, Bool.true_and]
    · have clear : old.getLsbD i = false := by
        by_contra set
        exact intact ⟨rfl, rfl, nonzero, permitted, a, old, u, i, named, got, high, writable,
          by simpa using set⟩
      rw [getLsbD_csrrci, getLsbD_csrNewValue_high instr old s high, clear, Bool.and_false]

theorem mode_congr {x y : Word .rv64} (same : ∀ i, 32 ≤ i → x.getLsbD i = y.getLsbD i) :
    Satp.mode x = Satp.mode y := by
  rw [Satp.mode_eq, Satp.mode_eq]
  congr 1
  apply Field.get_congr
  rintro i ⟨low, -⟩
  exact same i (Nat.le_trans (by decide) low)

theorem getNamedCsr_satp {u : Iss .rv64 World} {old : Word .rv64}
    (got : (getNamedCsr plat .satp).run s = (.ok old, u)) : old = s.csrs.reg .satp ∧ u = s := by
  unfold getNamedCsr at got
  dsimp only at got
  rw [run_readField_bind] at got
  split at got
  · cases got
  · cases got
    exact ⟨rfl, rfl⟩

/-- A live bit is lost, which the law keeps. -/
theorem slips_breaks (slips : Slips plat instr .csrrci s) :
    ∃ t, (exec instr plat .csrrci).run s = (.ok (), t) ∧ ¬ Obeys plat instr .csrrci s t := by
  obtain ⟨-, -, nonzero, permitted, a, old, u, i, named, got, high, writable, set⟩ := slips
  have read := getCsrValue_named named got
  have status : (link instr old u).csrs.reg .mstatus = s.csrs.reg .mstatus := by
    rw [link_csrs, (getCsrValue_still got).reg]
  obtain ⟨t, written⟩ := run_setNamedCsr_of_read read status
    (csrResult instr .csrrci old (csrSource instr .csrrci s))
  have stored : (setCsrValue (instr.csr.setWidth 12) (csrResult instr .csrrci old
      (csrSource instr .csrrci s))).run (link instr old u) = (.ok (), t) := by
    unfold setCsrValue
    rw [named]
    exact written
  refine ⟨t, ?_, ?_⟩
  · rw [exec_csr_modify rfl rfl]
    unfold execCsrModify
    dsimp only
    rw [decide_eq_true nonzero, Exec.run_bind_ok permitted, if_neg Bool.false_ne_true,
      Exec.run_read_bind, Exec.run_bind_ok got, Exec.run_bind_ok (run_link old u), if_pos nonzero]
    exact stored
  · rintro ⟨old', u', read', wrote, -⟩
    have same := got.symm.trans (read'.read fun both => nomatch both.1)
    cases same
    have lawful := wrote (.inr nonzero)
    unfold setCsrValue at lawful
    rw [named] at lawful
    have own : a = .satp → (link instr old u).csrs.reg .satp = old := by
      rintro rfl
      obtain ⟨rfl, rfl⟩ := getNamedCsr_satp read
      rw [link_csrs]
    have bare : Satp.mode (csrResult instr .csrrci old (csrSource instr .csrrci s)) =
        @Satp.mode .rv64 0#64 := by
      apply mode_congr
      intro j above
      rw [getLsbD_csrrci, decide_eq_false (Nat.not_lt.mpr above), Bool.false_and]
      exact BitVec.getLsbD_zero.symm
    obtain ⟨cell, known, lost⟩ :=
      arrived_setNamedCsr read set high writable (fun _ => .inl (.inl bare)) written
    obtain ⟨cell', known', kept⟩ := arrived_setNamedCsr read set high writable (fun satp => .inr (by
      rw [own satp]
      exact mode_congr fun j above => getLsbD_csrNewValue_high instr old s above)) lawful
    cases known.symm.trans known'
    rw [lost, getLsbD_csrrci, decide_eq_false (Nat.not_lt.mpr high),
      getLsbD_csrNewValue_high instr old s high, set] at kept
    cases kept

end Clear

/-- A CSR instruction that returns follows the law, unless it is a `CSRRCI` of the RV64 core
that is permitted and finds a writable bit of the upper half set. -/
theorem exec_obeys_iff {plat : Platform World} {instr : Instruction} {op : Mapping}
    (csr : op.isCsr = true) (s : Iss isa World) :
    (∀ t, (exec instr plat op).run s = (.ok (), t) → Obeys plat instr op s t) ↔
      ¬ Slips plat instr op s := by
  constructor
  · intro obeys slips
    obtain ⟨rfl, rfl⟩ : isa = .rv64 ∧ op = .csrrci := ⟨slips.core, slips.clears⟩
    obtain ⟨t, ran, broken⟩ := slips_breaks slips
    exact broken (obeys t ran)
  · intro intact t ran
    by_cases clears : isa = .rv64 ∧ op = .csrrci
    · obtain ⟨rfl, rfl⟩ := clears
      exact obeys_of_intact intact ran
    · exact obeys_of_other csr clears ran

/-- `csrrci x5, mscratch, 1`, with all bits of the register set. -/
def clearScratch : Instruction := 0x3400F2F3#32

def fullScratch : Iss .rv64 Flat := (everywhere 0x13).setCsr .mscratch (BitVec.allOnes 64)

/-- `csrrs x5, mscratch, x0` is not a `CSRRCI`. -/
theorem csrrs_obeys : Obeys Flat.platform 0x340022F3#32 .csrrs fullScratch
    ((exec 0x340022F3#32 Flat.platform .csrrs).run fullScratch).2 :=
  (@exec_obeys_iff _ _ Flat.platform 0x340022F3#32 .csrrs (by decide) fullScratch).mpr
    (fun slips => nomatch slips.clears) _ (Prod.ext (by decide) rfl)

/-- Bit 63 goes with bit 0. -/
theorem csrrci_clears_upper_half : ¬ ∀ t,
    (exec clearScratch Flat.platform .csrrci).run fullScratch = (.ok (), t) →
      Obeys Flat.platform clearScratch .csrrci fullScratch t := by
  intro obeys
  obtain ⟨old, u, read, wrote, -⟩ := obeys _ (Prod.ext (by decide) rfl)
  have got := read.read fun both => nomatch both.1
  have known : (getCsrValue Flat.platform (clearScratch.csr.setWidth 12)).run fullScratch =
      (.ok (BitVec.allOnes 64), fullScratch) := Prod.ext (by decide) rfl
  cases known.symm.trans got
  have lawful := congrArg (fun r => r.2.csrs.reg .mscratch) (wrote (.inr (by decide)))
  exact absurd lawful (by decide)

end Iss

end RiscvVp
