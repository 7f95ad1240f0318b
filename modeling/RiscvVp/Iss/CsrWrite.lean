/-
# RiscvVp.Iss.CsrWrite -- what a write to a CSR address can change

`cell` is where the value of an address is kept, `writeMask` the bits of it that a write
to the address can change.  `set_csr_value` changes these bits and nothing else of the
core, whatever the value, or it raises an illegal-instruction trap.
-/
import RiscvVp.Iss.Instructions

namespace RiscvVp

set_option autoImplicit false

open Lib Transition

/-- `CSRRW` and `CSRRWI` always write, and read only for a destination. -/
def Mapping.isCsrSwap : Mapping → Bool
  | .csrrw | .csrrwi => true
  | _ => false

namespace CsrAddr

/-- The views of `mstatus`, `mie`, `mip` and `fcsr` are not in the register map. -/
def cell (isa : Isa) : CsrAddr → Option Cell
  | .sstatus | .ustatus => some (.reg .mstatus)
  | .sie | .uie => some (.reg .mie)
  | .sip | .uip => some (.reg .mip)
  | .fflags | .frm => some (.reg .fcsr)
  | a => registerMapping isa a

def writeMask (isa : Isa) : CsrAddr → Word isa
  | .misa => 0
  | .satp => Mask.satp isa
  | .mtvec | .stvec | .utvec => Mask.mtvec isa
  | .mstatus => Mask.mstatusWrite isa
  | .sstatus => Mask.sstatusWrite isa
  | .ustatus => Mask.ustatus isa
  | .mip => Mask.mipWrite isa
  | .sip => Mask.sip isa
  | .uip => Mask.uip isa
  | .mie => Mask.mie isa
  | .sie => Mask.sie isa
  | .uie => Mask.uie isa
  | .mideleg => Mask.mideleg isa
  | .medeleg => Mask.medeleg isa
  | .sideleg => Mask.sideleg isa
  | .sedeleg => Mask.sedeleg isa
  | .mcounteren | .scounteren => Mask.mcounteren isa
  | .mcountinhibit => Mask.mcountinhibit isa
  | .fcsr => Mask.fcsr isa
  | .fflags => 0b00011111
  | .frm => 0b11100000
  | _ => BitVec.allOnes isa.xlen

/-- Where the map does not depend on the core. -/
theorem cell_mstatus {isa : Isa} {a : CsrAddr} (own : a.cell isa = some (.reg .mstatus)) :
    a = .mstatus ∨ a = .sstatus ∨ a = .ustatus := by
  cases a
  case mstatus => exact .inl rfl
  case sstatus => exact .inr (.inl rfl)
  case ustatus => exact .inr (.inr rfl)
  case pmpcfg i =>
    revert i
    cases isa <;> decide
  all_goals cases isa <;> cases own

/-- The addresses that only the RV32 core has. -/
def rv32Only : CsrAddr → Bool
  | .cycleh | .timeh | .instreth | .mcycleh | .mtimeh | .minstreth => true
  | .tselect | .tdata1 | .tdata2 | .tdata3 | .dcsr | .dpc | .dscratch0 | .dscratch1 => true
  | .hpmcounterh _ | .mhpmcounterh _ => true
  | _ => false

end CsrAddr

namespace Iss

variable {isa : Isa} {World : Type}

structure Written (a : CsrAddr) (s : Iss isa World) (o : Option Exc) (t : Iss isa World) : Prop where
  rest : t = { s with csrs := t.csrs }
  kept : ∀ c i, ¬ (a.cell isa = some (.reg c) ∧ (a.writeMask isa).getLsbD i = true) →
    (t.csrs.reg c).getLsbD i = (s.csrs.reg c).getLsbD i
  counter : ∀ k, a.cell isa ≠ some (.counter k) → a.cell isa ≠ some (.counterHigh k) →
    t.csrs.counter k = s.csrs.counter k
  trap : ∀ e, o = some e → ∃ reason, e = .trap reason

instance (a : CsrAddr) : Closed (@Written isa World a) where
  refl _ := ⟨rfl, fun _ _ _ => rfl, fun _ _ _ => rfl, nofun⟩
  trans first second :=
    { rest := by rw [second.rest, first.rest]
      kept := fun c i fixed => (second.kept c i fixed).trans (first.kept c i fixed)
      counter := fun k low high => (second.counter k low high).trans (first.counter k low high)
      trap := second.trap }

section Rules

variable {a : CsrAddr}

instance {α : Type} : Sat (Written a) (raiseIllegalInstruction : IssM isa World α) :=
  ⟨fun _ => ⟨rfl, fun _ _ _ => rfl, fun _ _ _ => rfl, fun _ same => ⟨_, (Option.some.inj same).symm⟩⟩⟩

theorem written_update {c : Csr} {f : Iss isa World → Word isa} (own : a.cell isa = some (.reg c))
    (inside : ∀ s i, (a.writeMask isa).getLsbD i = false →
      (f s).getLsbD i = (s.csrs.reg c).getLsbD i) :
    Sat (Written a) (Exec.update fun s : Iss isa World => s.setCsr c (f s)) :=
  .update fun s =>
    { rest := rfl
      kept := fun d i fixed => by
        by_cases same : d = c
        · subst same
          rw [setCsr_reg_self]
          exact inside s i (Bool.eq_false_iff.mpr fun set => fixed ⟨own, set⟩)
        · rw [setCsr_reg_of_ne s same]
      counter := fun k _ _ => by cases k <;> rfl
      trap := nofun }

theorem written_masked {c : Csr} {mask : Word isa} (own : a.cell isa = some (.reg c))
    (subset : mask &&& a.writeMask isa = mask) (value : Word isa) :
    Sat (Written a) (writeMasked c value mask : IssM isa World Unit) := by
  apply written_update own
  intro s i fixed
  have unmasked : mask.getLsbD i = false := by
    rw [← subset, BitVec.getLsbD_and, fixed, Bool.and_false]
  rw [getLsbD_maskedWrite, unmasked]
  rfl

theorem written_field {c : Csr} {len : Nat} {f : Field len} (own : a.cell isa = some (.reg c))
    (inside : ∀ i, f.Covers i → (a.writeMask isa).getLsbD i = true) (value : BitVec len) :
    Sat (Written a) (writeField c f value : IssM isa World Unit) := by
  apply written_update own
  intro s i fixed
  have uncovered : ¬ f.Covers i := by
    intro covered
    rw [inside i covered] at fixed
    cases fixed
  rw [Field.getLsbD_set, if_neg uncovered]

theorem written_default (own : a.cell isa = registerMapping isa a)
    (whole : a.writeMask isa = BitVec.allOnes isa.xlen) (value : Word isa) :
    Sat (Written a) (defaultWrite a value : IssM isa World Unit) := by
  unfold defaultWrite
  cases mapped : registerMapping isa a with
  | none => exact inferInstance
  | some cell =>
    rw [mapped] at own
    cases cell with
    | counter k =>
      refine .update fun s => ⟨rfl, fun c i _ => by cases k <;> rfl, fun j low _ => ?_, nofun⟩
      have other : j ≠ k := fun same => low (same ▸ own)
      cases j <;> cases k <;> first | exact absurd rfl other | rfl
    | counterHigh k =>
      refine .update fun s => ⟨rfl, fun c i _ => by cases k <;> rfl, fun j _ high => ?_, nofun⟩
      have other : j ≠ k := fun same => high (same ▸ own)
      cases j <;> cases k <;> first | exact absurd rfl other | rfl
    | reg c =>
      apply @written_update isa World a c (fun _ => value) own
      intro s i fixed
      rw [whole] at fixed
      have outside : isa.xlen ≤ i := by simpa using fixed
      rw [BitVec.getLsbD_of_ge value i outside, BitVec.getLsbD_of_ge _ i outside]

end Rules

/-! ## The switch -/

/-- The mode field that the RV64 core puts back is inside the mask. -/
theorem written_writeSatp (value : Word isa) :
    Sat (Written .satp) (writeSatp value : IssM isa World Unit) := by
  have masked := @written_masked isa World .satp .satp (Mask.satp isa) rfl
    (BitVec.and_self) value
  unfold writeSatp
  refine .bind inferInstance fun before => .bind masked fun _ => ?_
  cases isa with
  | rv32 => exact Sat.instPure ()
  | rv64 =>
    have restored := @written_update .rv64 World .satp .satp
      (fun s => (⟨60⟩ : Field 4).set ((⟨60⟩ : Field 4).get before) (s.csrs.reg .satp)) rfl (by
        intro s i fixed
        have mode : ∀ i < 64, 60 ≤ i → (Mask.satp .rv64).getLsbD i = true := by decide
        have uncovered : ¬ (⟨60⟩ : Field 4).Covers i := by
          rintro ⟨low, high⟩
          exact absurd (mode i high low) (Bool.eq_false_iff.mp fixed)
        rw [Field.getLsbD_set, if_neg uncovered])
    refine ⟨fun s => ?_⟩
    refine SatAt.bind (.of_sat (Sat.instRead _)) fun after t ran => .ite (fun _ => ?_) fun _ => ?_
    · cases ran
      exact restored.holds s
    · exact .of_sat inferInstance

theorem written_setNamedCsr (a : CsrAddr) (value : Word isa) :
    Sat (Written a) (setNamedCsr value a : IssM isa World Unit) := by
  have aligned : ∀ {c : Csr}, a.cell isa = some (.reg c) →
      a.writeMask isa = BitVec.allOnes isa.xlen →
      Sat (Written a) (do writeMasked c value (← Exec.read pcAlignmentMask) :
        IssM isa World Unit) := by
    intro c own whole
    refine .bind inferInstance fun mask => written_masked own ?_ value
    rw [whole, BitVec.and_allOnes]
  cases a
  case satp =>
    have := @written_writeSatp isa World value
    unfold setNamedCsr
    infer_instance
  case mepc | sepc | uepc => exact aligned rfl rfl
  case misa | hpmcounter | mhpmcounter | mhpmevent => exact Sat.instPure ()
  case hpmcounterh | mhpmcounterh | tselect | tdata1 | tdata2 | tdata3 | dcsr | dpc | dscratch0 |
      dscratch1 =>
    unfold setNamedCsr
    infer_instance
  case fflags =>
    have bits : ∀ i < 5, (CsrAddr.fflags.writeMask isa).getLsbD i = true := by
      cases isa <;> decide
    exact written_field rfl (fun i covered => bits i (covered.2.trans_eq (Nat.zero_add 5))) _
  case frm =>
    have bits : ∀ i < 8, 5 ≤ i → (CsrAddr.frm.writeMask isa).getLsbD i = true := by
      cases isa <;> decide
    exact written_field rfl (fun i covered => bits i covered.2 covered.1) _
  case mtvec | stvec | utvec | mstatus | sstatus | ustatus | mip | sip | uip | mie | sie | uie |
      mideleg | medeleg | sideleg | sedeleg | mcounteren | scounteren | mcountinhibit | fcsr =>
    exact written_masked rfl BitVec.and_self value
  all_goals exact written_default rfl rfl value

/-! ## Accesses that are refused -/

/-- Both switches refuse the addresses of the other core, and `satp` under `tvm`. -/
def Refused (a : CsrAddr) (s : Iss isa World) : Prop :=
  isa = .rv64 ∧ a.rv32Only = true ∨ a = .satp ∧ Mstatus.tvm.get (s.csrs.reg .mstatus) = 1#1

theorem run_setNamedCsr_refused {a : CsrAddr} {s : Iss isa World} (refused : Refused a s)
    (value : Word isa) :
    (setNamedCsr value a).run s = (raiseIllegalInstruction : IssM isa World Unit).run s := by
  rcases refused with ⟨rfl, only⟩ | ⟨rfl, trapped⟩
  · cases a <;> first | rfl | cases only
  · unfold setNamedCsr
    rw [run_readField_bind, if_pos trapped]

theorem run_getNamedCsr_refused (plat : Platform World) {a : CsrAddr} {s : Iss isa World}
    (refused : Refused a s) :
    (getNamedCsr plat a).run s = (raiseIllegalInstruction : IssM isa World (Word isa)).run s := by
  rcases refused with ⟨rfl, only⟩ | ⟨rfl, trapped⟩
  · cases a <;> first | rfl | cases only
  · unfold getNamedCsr
    rw [run_readField_bind, if_pos trapped]

theorem setCsr_setCsr (s : Iss isa World) (c : Csr) (x y : Word isa) :
    (s.setCsr c x).setCsr c y = s.setCsr c y := by
  unfold setCsr CsrTable.set
  congr
  funext d
  split
  case isTrue => rfl
  case isFalse other => exact if_neg other

/-- What `satp` holds after a write on the RV64 core. -/
def satpWritten (before value : Word .rv64) : Word .rv64 :=
  let after := maskedWrite before value (Mask.satp .rv64)
  let mode := Satp.mode after
  let field : Field 4 := ⟨60⟩
  if mode ≠ Satp.bare ∧ mode ≠ Satp.sv39 ∧ mode ≠ Satp.sv48 then
    field.set (field.get before) after
  else after

theorem run_writeSatp_rv64 (value : Word .rv64) (s : Iss .rv64 World) :
    (writeSatp value).run s =
      (.ok (), s.setCsr .satp (satpWritten (s.csrs.reg .satp) value)) := by
  have unfolded : (writeSatp value).run s =
      (let after := maskedWrite (s.csrs.reg .satp) value (Mask.satp .rv64)
      let mode := Satp.mode after
      let field : Field 4 := ⟨60⟩
      (if mode ≠ Satp.bare ∧ mode ≠ Satp.sv39 ∧ mode ≠ Satp.sv48 then
        writeCsr .satp (field.set (field.get (s.csrs.reg .satp)) after)
      else pure () : IssM .rv64 World Unit).run (s.setCsr .satp after)) := rfl
  rw [unfolded]
  unfold satpWritten
  dsimp only
  split
  · exact congrArg (Prod.mk _) (setCsr_setCsr s .satp _ _)
  · rfl

/-- Everything else is written. -/
theorem run_setNamedCsr_ok {a : CsrAddr} {s : Iss isa World} (accepted : ¬ Refused a s)
    (value : Word isa) : ∃ t, (setNamedCsr value a).run s = (.ok (), t) := by
  cases a
  case satp =>
    unfold setNamedCsr
    rw [run_readField_bind, if_neg fun trapped => accepted (.inr ⟨rfl, trapped⟩)]
    cases isa with
    | rv32 => exact ⟨_, rfl⟩
    | rv64 => exact ⟨_, run_writeSatp_rv64 value s⟩
  case pmpcfg i =>
    have known : ∀ i, (registerMapping isa (.pmpcfg i)).isSome = true := by
      cases isa <;> decide
    obtain ⟨cell, mapped⟩ := Option.isSome_iff_exists.mp (known i)
    refine ⟨{ s with csrs := s.csrs.writeCell cell value }, ?_⟩
    show (defaultWrite (.pmpcfg i) value).run s = _
    unfold defaultWrite
    rw [mapped]
    rfl
  case cycleh | timeh | instreth | mcycleh | mtimeh | minstreth | tselect | tdata1 | tdata2 | tdata3 |
      dcsr | dpc | dscratch0 | dscratch1 | hpmcounterh | mhpmcounterh =>
    cases isa with
    | rv32 => exact ⟨_, rfl⟩
    | rv64 => exact absurd (.inl ⟨rfl, rfl⟩) accepted
  all_goals exact ⟨_, rfl⟩

/-- What can be read can be written. -/
theorem run_setNamedCsr_of_read {plat : Platform World} {a : CsrAddr} {s t u : Iss isa World}
    {old : Word isa} (got : (getNamedCsr plat a).run s = (.ok old, t))
    (status : u.csrs.reg .mstatus = s.csrs.reg .mstatus) (value : Word isa) :
    ∃ v, (setNamedCsr value a).run u = (.ok (), v) := by
  apply run_setNamedCsr_ok
  intro refused
  have before : Refused a s := by
    unfold Refused at refused ⊢
    rwa [status] at refused
  rw [run_getNamedCsr_refused plat before] at got
  cases got

/-- An address that is not named is not written. -/
theorem setCsrValue_cases (addr : BitVec 12) (value : Word isa) :
    (setCsrValue addr value : IssM isa World Unit) = raiseIllegalInstruction ∨
      ∃ a : CsrAddr, a.addr = addr ∧
        (setCsrValue addr value : IssM isa World Unit) = setNamedCsr value a := by
  unfold setCsrValue
  cases found : CsrAddr.named addr with
  | none => exact .inl rfl
  | some a => exact .inr ⟨a, CsrAddr.addr_of_named found, rfl⟩

/-- A write is turned down, or is one of the table. -/
theorem run_setCsrValue (addr : BitVec 12) (value : Word isa) (s : Iss isa World) :
    (setCsrValue addr value).run s = (raiseIllegalInstruction : IssM isa World Unit).run s ∨
      ∃ csrs, (setCsrValue addr value).run s = (.ok (), { s with csrs := csrs }) := by
  rcases setCsrValue_cases addr value with illegal | ⟨a, -, write⟩
  · exact .inl (by rw [illegal])
  by_cases refused : Refused a s
  · exact .inl (by rw [write, run_setNamedCsr_refused refused])
  · obtain ⟨t, ran⟩ := run_setNamedCsr_ok refused value
    refine .inr ⟨t.csrs, ?_⟩
    rw [write, ran]
    exact congrArg (Prod.mk _) ((written_setNamedCsr a value).ok ran).rest

/-- A transition that does not look at the table. -/
theorem sat_setCsrValue {R : Transition (Iss isa World) Exc} [Notes R]
    (table : ∀ s csrs, R s none { s with csrs := csrs }) (addr : BitVec 12) (value : Word isa) :
    Sat R (setCsrValue addr value) where
  holds s := by
    rcases run_setCsrValue addr value s with illegal | ⟨csrs, written⟩
    · rw [illegal]
      exact (inferInstance : Sat R raiseIllegalInstruction).holds s
    · rw [written]
      exact table s csrs

/-! ## CSR instructions -/

/-- The state stays as it is. -/
def Unmoved (s : Iss isa World) (_ : Option Exc) (t : Iss isa World) : Prop := t = s

instance : Closed (@Unmoved isa World) where
  refl _ := rfl
  trans first second := second.trans first

instance {α : Type} : Sat Unmoved (raiseIllegalInstruction : IssM isa World α) := ⟨fun _ => rfl⟩

instance (addr : BitVec 12) :
    Sat Unmoved (validateCsrCounterReadAccessRights addr : IssM isa World Unit) := by
  unfold validateCsrCounterReadAccessRights
  infer_instance

instance (addr : BitVec 12) (isWrite : Bool) :
    Sat Unmoved (isInvalidCsrAccess addr isWrite : IssM isa World Bool) := by
  unfold isInvalidCsrAccess
  infer_instance

theorem getCsrValue_named {plat : Platform World} {addr : BitVec 12} {a : CsrAddr}
    (named : CsrAddr.named addr = some a) {s t : Iss isa World} {old : Word isa}
    (got : (getCsrValue plat addr).run s = (.ok old, t)) :
    (getNamedCsr plat a).run s = (.ok old, t) := by
  unfold getCsrValue at got
  rw [named] at got
  obtain ⟨_, u, validated, read⟩ := Exec.run_bind_eq_ok.mp got
  have same : u = s := Sat.ok (R := Unmoved) inferInstance validated
  rwa [same] at read

theorem getCsrValue_still {plat : Platform World} {addr : BitVec 12} {s t : Iss isa World}
    {old : Word isa} (got : (getCsrValue plat addr).run s = (.ok old, t)) : Still plat s none t :=
  Sat.ok inferInstance got

/-- What the access check lets through. -/
theorem isInvalidCsrAccess_passed {addr : BitVec 12} {isWrite : Bool} {s t : Iss isa World}
    (ran : (isInvalidCsrAccess addr isWrite).run s = (.ok false, t)) :
    t = s ∧ csrPrv addr ≤ s.prv ∧ (isWrite && csrReadonly addr) = false := by
  have same : t = s := Sat.ok (R := Unmoved) inferInstance ran
  unfold isInvalidCsrAccess at ran
  obtain ⟨_, u, required, checked⟩ := Exec.run_bind_eq_ok.mp ran
  have unmoved : u = s := Sat.ok (R := Unmoved) inferInstance required
  subst unmoved
  simp only [Exec.run_read_bind, Exec.run_pure, Prod.mk.injEq, Except.ok.injEq,
    Bool.or_eq_false_iff, decide_eq_false_iff_not, BitVec.not_lt] at checked
  obtain ⟨⟨⟨⟨writable, allowed⟩, -⟩, -⟩, -⟩ := checked
  exact ⟨same, allowed, writable⟩

section Instructions

variable {instr : Instruction} {plat : Platform World} {src : Iss isa World → Word isa}

/-- The state after the old value went to `rd`. -/
def link (instr : Instruction) (old : Word isa) (s : Iss isa World) : Iss isa World :=
  if regIndex instr.rd ≠ 0 then s.setReg (regIndex instr.rd) old else s

theorem run_link (old : Word isa) (s : Iss isa World) :
    (Exec.when (regIndex instr.rd ≠ 0) (writeReg instr.rd old)).run s =
      (.ok (), link instr old s) := by
  unfold link Exec.when
  split <;> rfl

theorem link_csrs (old : Word isa) (s : Iss isa World) : (link instr old s).csrs = s.csrs := by
  unfold link
  split <;> rfl

/-- A `CSRRW` that returns. -/
theorem execCsrWrite_ok {s t : Iss isa World}
    (ran : (execCsrWrite instr plat (Exec.read src)).run s = (.ok (), t)) :
    csrPrv (instr.csr.setWidth 12) ≤ s.prv ∧ csrReadonly (instr.csr.setWidth 12) = false ∧
      ∃ old u, (regIndex instr.rd = 0 ∧ u = s ∨
          regIndex instr.rd ≠ 0 ∧ (getCsrValue plat (instr.csr.setWidth 12)).run s = (.ok old, u)) ∧
        (setCsrValue (instr.csr.setWidth 12) (src s)).run (link instr old u) = (.ok (), t) := by
  unfold execCsrWrite at ran
  obtain ⟨invalid, s', checked, body⟩ := Exec.run_bind_eq_ok.mp ran
  cases invalid with
  | true => cases body
  | false =>
    obtain ⟨rfl, allowed, writable⟩ := isInvalidCsrAccess_passed checked
    refine ⟨allowed, by simpa using writable, ?_⟩
    rw [if_neg Bool.false_ne_true, Exec.run_read_bind] at body
    by_cases zero : regIndex instr.rd = 0
    · rw [Exec.when_neg (not_not.mpr zero), Exec.run_pure_bind] at body
      refine ⟨0, s', .inl ⟨zero, rfl⟩, ?_⟩
      unfold link
      rwa [if_neg (not_not.mpr zero)]
    · rw [Exec.when_pos zero] at body
      obtain ⟨_, v, linked, written⟩ := Exec.run_bind_eq_ok.mp body
      obtain ⟨old, u, got, stored⟩ := Exec.run_bind_eq_ok.mp linked
      cases stored
      refine ⟨old, u, .inr ⟨zero, got⟩, ?_⟩
      unfold link
      rwa [if_pos zero]

/-- A `CSRRS` or `CSRRC` that returns. -/
theorem execCsrModify_ok {f : Word isa → Word isa → Word isa} {s t : Iss isa World}
    (ran : (execCsrModify instr plat (Exec.read src) f).run s = (.ok (), t)) :
    csrPrv (instr.csr.setWidth 12) ≤ s.prv ∧
      ∃ old u, (getCsrValue plat (instr.csr.setWidth 12)).run s = (.ok old, u) ∧
        (regIndex instr.rs1 = 0 ∧ t = link instr old u ∨
          regIndex instr.rs1 ≠ 0 ∧ csrReadonly (instr.csr.setWidth 12) = false ∧
          (setCsrValue (instr.csr.setWidth 12) (f old (src s))).run (link instr old u) =
            (.ok (), t)) := by
  unfold execCsrModify at ran
  obtain ⟨invalid, s', checked, body⟩ := Exec.run_bind_eq_ok.mp ran
  cases invalid with
  | true => cases body
  | false =>
    obtain ⟨rfl, allowed, writable⟩ := isInvalidCsrAccess_passed checked
    refine ⟨allowed, ?_⟩
    rw [if_neg Bool.false_ne_true, Exec.run_read_bind] at body
    obtain ⟨old, u, got, rest⟩ := Exec.run_bind_eq_ok.mp body
    rw [Exec.run_bind_ok (run_link old u)] at rest
    refine ⟨old, u, got, ?_⟩
    by_cases zero : regIndex instr.rs1 = 0
    · rw [if_neg (not_not.mpr zero)] at rest
      cases rest
      exact .inl ⟨zero, rfl⟩
    · rw [if_pos zero] at rest
      rw [decide_eq_true zero, Bool.true_and] at writable
      exact .inr ⟨zero, writable, rest⟩

/-- The operand of a CSR instruction. -/
def csrSource (instr : Instruction) : Mapping → Iss isa World → Word isa
  | .csrrw | .csrrs | .csrrc => fun s => s.regs (regIndex instr.rs1)
  | _ => fun _ => instr.zimm.setWidth isa.xlen

/-- The value it writes, from the old value and its operand. -/
def csrResult (instr : Instruction) : Mapping → Word isa → Word isa → Word isa
  | .csrrs | .csrrsi => fun old v => old ||| v
  | .csrrc => fun old v => old &&& ~~~v
  | .csrrci => fun old _ => old &&& (~~~instr.zimm).setWidth isa.xlen
  | _ => fun _ v => v

theorem exec_csr_swap {op : Mapping} (swap : op.isCsrSwap = true) :
    (exec instr plat op : IssM isa World Unit) =
      execCsrWrite instr plat (Exec.read (csrSource instr op)) := by
  cases op
  case csrrw | csrrwi => rfl
  all_goals cases swap

theorem exec_csr_modify {op : Mapping} (csr : op.isCsr = true) (swap : op.isCsrSwap = false) :
    (exec instr plat op : IssM isa World Unit) =
      execCsrModify instr plat (Exec.read (csrSource instr op)) (csrResult instr op) := by
  cases op
  case csrrs | csrrc | csrrsi | csrrci => rfl
  case csrrw | csrrwi => cases swap
  all_goals cases csr

def CsrReads (instr : Instruction) (op : Mapping) : Prop :=
  ¬ (op.isCsrSwap = true ∧ regIndex instr.rd = 0)

def CsrWrites (instr : Instruction) (op : Mapping) : Prop :=
  op.isCsrSwap = true ∨ regIndex instr.rs1 ≠ 0

/-- What a CSR instruction has read when it comes to its write. -/
structure CsrRead (plat : Platform World) (instr : Instruction) (op : Mapping) (s : Iss isa World)
    (old : Word isa) (u : Iss isa World) : Prop where
  allowed : csrPrv (instr.csr.setWidth 12) ≤ s.prv
  read : CsrReads instr op → (getCsrValue plat (instr.csr.setWidth 12)).run s = (.ok old, u)
  unread : ¬ CsrReads instr op → u = s

theorem CsrRead.still {op : Mapping} {s u : Iss isa World} {old : Word isa}
    (read : CsrRead plat instr op s old u) : Still plat s none u := by
  by_cases reads : CsrReads instr op
  · exact getCsrValue_still (read.read reads)
  · rw [read.unread reads]
    exact Closed.refl s

/-- A CSR instruction that returned: the old value was read, and went to `rd`, then the new
one was written. -/
structure CsrStep (plat : Platform World) (instr : Instruction) (op : Mapping) (s : Iss isa World)
    (old : Word isa) (u t : Iss isa World) : Prop extends CsrRead plat instr op s old u where
  wrote : CsrWrites instr op → csrReadonly (instr.csr.setWidth 12) = false ∧
    (setCsrValue (instr.csr.setWidth 12) (csrResult instr op old (csrSource instr op s))).run
      (link instr old u) = (.ok (), t)
  kept : ¬ CsrWrites instr op → t = link instr old u

theorem csrStep_swap {op : Mapping} (swap : op.isCsrSwap = true) {s t : Iss isa World}
    (ran : (execCsrWrite instr plat (Exec.read (csrSource instr op))).run s = (.ok (), t)) :
    ∃ old u, CsrStep plat instr op s old u t := by
  obtain ⟨allowed, writable, old, u, got, written⟩ := execCsrWrite_ok ran
  have result : csrResult instr op old (csrSource instr op s) = csrSource instr op s := by
    cases op <;> first | rfl | cases swap
  refine ⟨old, u, ⟨allowed, fun reads => ?_, fun unread => ?_⟩, fun _ => ⟨writable, ?_⟩,
    fun never => absurd (.inl swap) never⟩
  · exact (got.resolve_left fun zero => reads ⟨swap, zero.1⟩).2
  · exact (got.resolve_right fun nonzero => unread fun zero => nonzero.1 zero.2).2
  · rwa [result]

theorem csrStep_modify {op : Mapping} (swap : op.isCsrSwap = false) {s t : Iss isa World}
    (ran : (execCsrModify instr plat (Exec.read (csrSource instr op)) (csrResult instr op)).run s =
      (.ok (), t)) : ∃ old u, CsrStep plat instr op s old u t := by
  obtain ⟨allowed, old, u, got, wrote⟩ := execCsrModify_ok ran
  have never : ¬ op.isCsrSwap = true := Bool.eq_false_iff.mp swap
  refine ⟨old, u, ⟨allowed, fun _ => got, fun unread => absurd (fun both => never both.1) unread⟩,
    fun writes => ?_, fun unwritten => ?_⟩
  · exact (wrote.resolve_left fun zero => zero.1 |> writes.resolve_left never).2
  · exact (wrote.resolve_right fun written => unwritten (.inr written.1)).2

theorem csrStep_exec {op : Mapping} (csr : op.isCsr = true) {s t : Iss isa World}
    (ran : (exec instr plat op).run s = (.ok (), t)) : ∃ old u, CsrStep plat instr op s old u t := by
  cases swap : op.isCsrSwap with
  | true =>
    rw [exec_csr_swap swap] at ran
    exact csrStep_swap swap ran
  | false =>
    rw [exec_csr_modify csr swap] at ran
    exact csrStep_modify swap ran

section Rule

variable (Q : Transition (Iss isa World) Exc) [loads : Loads plat Q] [writes : Writes Q]
  {R : Transition (Iss isa World) Exc} [Closed R] [le : Le Q R] {op : Mapping} {s : Iss isa World}
  (write : ∀ {old u}, CsrRead plat instr op s old u → CsrWrites instr op →
    csrReadonly (instr.csr.setWidth 12) = false →
    SatAt R (setCsrValue (instr.csr.setWidth 12) (csrResult instr op old (csrSource instr op s)))
      (link instr old u))

include loads writes le write

theorem satAt_execCsrWrite (swap : op.isCsrSwap = true) :
    SatAt R (execCsrWrite instr plat (Exec.read (csrSource instr op))) s := by
  have result : ∀ old, csrResult instr op old (csrSource instr op s) = csrSource instr op s := by
    intro old
    cases op <;> first | rfl | cases swap
  have quiet : ∀ {α : Type} {m : IssM isa World α} {t}, Sat Q m → SatAt R m t :=
    fun sat => Le.weaken (sat.holds _)
  unfold execCsrWrite
  refine .bind (quiet inferInstance) fun invalid t checked => ?_
  cases invalid with
  | true => exact quiet (inferInstance : Sat Q raiseIllegalInstruction)
  | false =>
    obtain ⟨rfl, allowed, writable⟩ := isInvalidCsrAccess_passed checked
    rw [Bool.true_and] at writable
    rw [if_neg Bool.false_ne_true]
    refine .bind (quiet inferInstance) fun value t read => ?_
    cases read
    refine .bind (quiet inferInstance) fun _ v linked => ?_
    by_cases zero : regIndex instr.rd = 0
    · rw [Exec.when_neg (not_not.mpr zero)] at linked
      cases linked
      have unread : CsrRead plat instr op t 0 t :=
        ⟨allowed, fun reads => absurd ⟨swap, zero⟩ reads, fun _ => rfl⟩
      have written := write unread (.inl swap) writable
      rw [result] at written
      unfold link at written
      rwa [if_neg (not_not.mpr zero)] at written
    · rw [Exec.when_pos zero] at linked
      obtain ⟨old, u, got, stored⟩ := Exec.run_bind_eq_ok.mp linked
      cases stored
      have written := write ⟨allowed, fun _ => got, fun never => absurd (fun both => zero both.2) never⟩
        (.inl swap) writable
      rw [result] at written
      unfold link at written
      rwa [if_pos zero] at written

theorem satAt_execCsrModify (swap : op.isCsrSwap = false) :
    SatAt R (execCsrModify instr plat (Exec.read (csrSource instr op)) (csrResult instr op)) s := by
  have quiet : ∀ {α : Type} {m : IssM isa World α} {t}, Sat Q m → SatAt R m t :=
    fun sat => Le.weaken (sat.holds _)
  have never : ¬ op.isCsrSwap = true := Bool.eq_false_iff.mp swap
  unfold execCsrModify
  refine .bind (quiet inferInstance) fun invalid t checked => ?_
  cases invalid with
  | true => exact quiet (inferInstance : Sat Q raiseIllegalInstruction)
  | false =>
    obtain ⟨rfl, allowed, writable⟩ := isInvalidCsrAccess_passed checked
    rw [if_neg Bool.false_ne_true]
    refine .bind (quiet inferInstance) fun value t read => ?_
    cases read
    refine .bind (quiet inferInstance) fun old u got => ?_
    refine .bind (quiet inferInstance) fun _ v linked => ?_
    rw [run_link] at linked
    cases linked
    refine .ite (fun nonzero => ?_) fun _ => quiet inferInstance
    rw [decide_eq_true nonzero, Bool.true_and] at writable
    exact write ⟨allowed, fun _ => got, fun unread => absurd (fun both => never both.1) unread⟩
      (.inr nonzero) writable

/-- A CSR instruction is judged by its write. -/
theorem satAt_exec_csr (csr : op.isCsr = true) : SatAt R (exec instr plat op) s := by
  cases swap : op.isCsrSwap with
  | true =>
    rw [exec_csr_swap swap]
    exact satAt_execCsrWrite Q write swap
  | false =>
    rw [exec_csr_modify csr swap]
    exact satAt_execCsrModify Q write swap

end Rule

end Instructions

end Iss

end RiscvVp
