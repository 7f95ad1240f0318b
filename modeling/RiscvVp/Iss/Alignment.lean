/-
# RiscvVp.Iss.Alignment -- the program counter stays aligned

Everything that reaches the program counter is a multiple of two, and of four without
compressed instructions: the steps of the decoder, the targets of jumps, which are checked,
the addresses of handlers, and the three registers that a trap return takes it from.  These
hold what a trap put there, or what a CSR instruction wrote under the alignment mask.

In the middle of a step the program counter may be off: the decoder moves it over two bytes
before it is known that there are compressed instructions.  Then the step ends in a trap, and
the handler is entered from `last_pc`.
-/
import RiscvVp.Iss.Hardwired
import RiscvVp.Iss.IntStep
import RiscvVp.Iss.TrapStep

namespace RiscvVp.Iss

set_option autoImplicit false

open Lib Transition Spec Effect

variable {isa : Isa} {World : Type}

/-! ## Aligned addresses -/

def Aligned (s : Iss isa World) (a : Word isa) : Prop := a &&& ~~~s.pcAlignmentMask = 0

instance (s : Iss isa World) (a : Word isa) : Decidable (Aligned s a) :=
  inferInstanceAs (Decidable (_ = _))

/-- The bytes that the address of an instruction is a multiple of. -/
def parcel (s : Iss isa World) : Nat := if s.hasExtension Misa.extC then 2 else 4

section Arithmetic

variable {s : Iss isa World} {a b : Word isa}

theorem aligned_iff : Aligned s a ↔ a.toNat % s.parcel = 0 := by
  have wide : 2 < isa.xlen := by cases isa <;> decide
  unfold Aligned pcAlignmentMask parcel
  split
  · rw [BitVec.not_not]
    exact and_one_eq_zero_iff (Nat.lt_of_succ_lt wide) a
  · rw [BitVec.not_not]
    exact and_three_eq_zero_iff wide a

theorem parcel_cases (s : Iss isa World) : s.parcel = 2 ∨ s.parcel = 4 := by
  unfold parcel
  split
  · exact .inl rfl
  · exact .inr rfl

theorem aligned_of_four (four : a.toNat % 4 = 0) : Aligned s a := by
  rw [aligned_iff]
  rcases parcel_cases s with short | long
  · rw [short]
    omega
  · rw [long]
    exact four

theorem aligned_add (first : Aligned s a) (second : Aligned s b) : Aligned s (a + b) := by
  have wide : 2 ≤ isa.xlen := by cases isa <;> decide
  have low := add_toNat_mod (k := 2) wide a b
  rw [aligned_iff] at first second ⊢
  rcases parcel_cases s with short | long
  · rw [short] at first second ⊢
    omega
  · rw [long] at first second ⊢
    omega

/-- What is written under the mask over something aligned. -/
theorem aligned_maskedWrite (before : Aligned s a) (value : Word isa) :
    Aligned s (maskedWrite a value s.pcAlignmentMask) := by
  unfold Aligned at before ⊢
  unfold maskedWrite
  rw [before]
  change (BitVec.ofNat _ 0 ||| value &&& s.pcAlignmentMask) &&& ~~~s.pcAlignmentMask = BitVec.ofNat _ 0
  rw [BitVec.zero_or, BitVec.and_assoc, BitVec.and_not_self]
  exact BitVec.and_zero

/-- A handler lies at a multiple of four. -/
theorem aligned_handlerAddress (s : Iss isa World) (tvec cause : Word isa) :
    Aligned s (handlerAddress tvec cause) := by
  have wide : 2 < isa.xlen := by cases isa <;> decide
  have base : (tvec &&& ~~~3).toNat % 4 = 0 := by
    rw [← and_three_eq_zero_iff wide, BitVec.and_assoc]
    have cleared : (~~~3 : Word isa) &&& 3 = 0 := by cases isa <;> decide
    rw [cleared]
    exact BitVec.and_zero
  unfold handlerAddress
  dsimp only
  split
  · refine aligned_add (aligned_of_four base) (aligned_of_four ?_)
    have size : 4 ∣ 2 ^ isa.xlen := Nat.pow_dvd_pow 2 (Nat.le_of_lt wide)
    have four : (4 : Word isa).toNat = 4 := by cases isa <;> rfl
    rw [BitVec.toNat_mul, four, Nat.mod_mod_of_dvd _ size]
    exact Nat.mul_mod_right 4 _
  · exact aligned_of_four base

end Arithmetic

/-- Alignment is a matter of `misa`. -/
theorem aligned_congr {s t : Iss isa World} {a : Word isa}
    (misa : t.csrs.reg .misa = s.csrs.reg .misa) : Aligned t a ↔ Aligned s a := by
  unfold Aligned pcAlignmentMask hasExtension
  rw [misa]

/-! ## The registers that feed the program counter -/

/-- `misa` and the registers that a trap return reads. -/
def anchors (c : Csr) : Bool :=
  match c with
  | .misa | .mepc | .sepc | .uepc => true
  | _ => false

structure Anchored (s : Iss isa World) : Prop where
  compressed : isa = .rv64 → s.hasExtension Misa.extC = true
  lastPc : Aligned s s.lastPc
  epc : ∀ level, Aligned s (s.csrs.reg (trapRegs level).epc)

theorem epc_cases (level : PrivilegeLevel) : (trapRegs level).epc = .mepc ∨
    (trapRegs level).epc = .sepc ∨ (trapRegs level).epc = .uepc := by
  unfold trapRegs
  split
  · exact .inl rfl
  split
  · exact .inr (.inl rfl)
  · exact .inr (.inr rfl)

theorem anchors_epc (level : PrivilegeLevel) : anchors (trapRegs level).epc = true := by
  rcases epc_cases level with epc | epc | epc <;> rw [epc] <;> rfl

theorem Anchored.of_same {s t : Iss isa World} (anchored : Anchored s)
    (reg : ∀ c, anchors c = true → t.csrs.reg c = s.csrs.reg c) (lastPc : Aligned s t.lastPc) :
    Anchored t := by
  have misa := reg .misa rfl
  refine ⟨fun wide => ?_, (aligned_congr misa).mpr lastPc, fun level => ?_⟩
  · unfold hasExtension
    rw [misa]
    exact anchored.compressed wide
  · rw [aligned_congr misa, reg _ (anchors_epc level)]
    exact anchored.epc level

/-- The two assertions about the program counter. -/
def PcError (e : Exc) : Prop := e = .abort .misalignedInstruction ∨ e = .abort .oddProgramCounter

theorem no_pcError : ∀ e, (none : Option Exc) = some e → ¬ PcError e := by
  intro e same
  cases same

/-- What feeds the program counter is aligned, and the program counter itself when the code
returns, and neither assertion has failed. -/
structure Landed (s : Iss isa World) (o : Option Exc) (t : Iss isa World) : Prop where
  anchored : Anchored t
  misa : t.csrs.reg .misa = s.csrs.reg .misa
  pc : o = none → Aligned t t.pc
  fine : ∀ e, o = some e → ¬ PcError e

def Guided (s : Iss isa World) (o : Option Exc) (t : Iss isa World) : Prop :=
  Anchored s → Aligned s s.pc → Landed s o t

instance : Closed (@Guided isa World) where
  refl _ anchored aligned := ⟨anchored, rfl, fun _ => aligned, no_pcError⟩
  trans first second anchored aligned := by
    have landed := first anchored aligned
    have landed' := second landed.anchored (landed.pc rfl)
    exact ⟨landed'.anchored, landed'.misa.trans landed.misa, landed'.pc, landed'.fine⟩

theorem guided_of_same {s t : Iss isa World} {o : Option Exc} (pc : t.pc = s.pc)
    (lastPc : t.lastPc = s.lastPc) (reg : ∀ c, anchors c = true → t.csrs.reg c = s.csrs.reg c)
    (fine : ∀ e, o = some e → ¬ PcError e) : Guided s o t := fun anchored aligned =>
  { anchored := anchored.of_same reg (lastPc ▸ anchored.lastPc)
    misa := reg .misa rfl
    pc := fun _ => (aligned_congr (reg .misa rfl)).mpr (pc ▸ aligned)
    fine := fine }

theorem pcError_trap (e : SimulationTrap) : ¬ PcError (.trap e) := by
  rintro (bad | bad) <;> cases bad

theorem guided_setCsr (s : Iss isa World) {c : Csr} (other : anchors c = false) (value : Word isa) :
    Guided s none (s.setCsr c value) := by
  refine guided_of_same rfl rfl (fun d own => setCsr_reg_of_ne s ?_ value) no_pcError
  rintro rfl
  rw [own] at other
  cases other

/-! ## The parts of an instruction -/

instance : Issues (@Guided isa World) where
  trap _ _ _ _ := guided_of_same rfl rfl (fun _ _ => rfl) fun _ same => by
    cases same
    exact pcError_trap _
  rethrow _ _ _ _ step anchored aligned :=
    have landed := step anchored aligned
    { anchored := ⟨landed.anchored.compressed, landed.anchored.lastPc, landed.anchored.epc⟩
      misa := landed.misa
      pc := nofun
      fine := fun _ same => by
        cases same
        exact pcError_trap _ }
  abort s cause explained anchored aligned :=
    { anchored := anchored
      misa := rfl
      pc := nofun
      fine := fun _ same bad => by
        cases same
        rcases bad with bad | bad
        · cases bad
          exact explained aligned
        · cases bad
          exact explained (even_of_aligned aligned) }
  scratch _ _ _ _ := guided_of_same rfl rfl (fun _ _ => rfl) no_pcError
  issue _ _ _ := guided_of_same rfl rfl (fun _ _ => rfl) no_pcError
  cycle := ⟨fun _ => guided_of_same rfl rfl (fun _ _ => rfl) no_pcError⟩

instance : Lifts Answers (@Guided isa World) where
  world s o w answers := guided_of_same rfl rfl (fun _ _ => rfl) fun e ended bad => by
    rcases answers e ended with rfl | rfl | trap
    · rcases bad with bad | bad <;> cases bad
    · rcases bad with bad | bad <;> cases bad
    · rcases bad with rfl | rfl <;> exact trap

section Platform

variable (plat : Platform World)

theorem guided_reservation (s : Iss isa World) (addr : BitVec 64) (n : Int) :
    Guided s none { s with lrAddr := addr, lrScCounter := n } :=
  guided_of_same rfl rfl (fun _ _ => rfl) no_pcError

instance : Loads plat (@Guided isa World) :=
  loads_of_lifts plat Answers Guided (sat_release plat Answers Guided guided_reservation) fun _ _ =>
    guided_of_same rfl rfl (fun _ _ => rfl) no_pcError

instance : Locks plat (@Guided isa World) :=
  locks_of_lifts plat Answers Guided guided_reservation fun _ => answers_await _

instance : Stores plat (@Guided isa World) Guided := stores_of_lifts plat Answers Guided

end Platform

instance : Writes (@Guided isa World) where
  reg _ _ _ := guided_of_same rfl rfl (fun _ _ => rfl) no_pcError
  exit _ := guided_of_same rfl rfl (fun _ _ => rfl) no_pcError

instance : FpWrites (@Guided isa World) where
  reg _ _ _ := guided_of_same rfl rfl (fun _ _ => rfl) no_pcError
  flags _ _ := guided_of_same rfl rfl (fun _ _ => rfl) no_pcError
  dirty := .bind (.update fun s => guided_setCsr s rfl _) fun _ => .update fun s => guided_setCsr s rfl _
  accrue _ := .update fun s => guided_setCsr s rfl _

/-! ## Writes of a CSR -/

/-- An address that leads to one of the registers is its own. -/
theorem epc_of_cell {a : CsrAddr} (level : PrivilegeLevel)
    (own : a.cell isa = some (.reg (trapRegs level).epc)) : a = .mepc ∨ a = .sepc ∨ a = .uepc := by
  have among := epc_cases level
  cases a
  case mepc => exact .inl rfl
  case sepc => exact .inr (.inl rfl)
  case uepc => exact .inr (.inr rfl)
  case pmpcfg =>
    rcases cell_pmpcfg own with other | other | other <;>
      rcases among with epc | epc | epc <;> rw [epc] at other <;> cases other
  all_goals
    rcases among with epc | epc | epc <;> rw [epc] at own <;> cases isa <;> cases own

/-- An aligned value in one of the registers. -/
theorem landed_setEpc {s : Iss isa World} {c : Csr} (own : c = .mepc ∨ c = .sepc ∨ c = .uepc)
    {value : Word isa} (anchored : Anchored s) (aligned : Aligned s s.pc)
    (fits : Aligned s (s.csrs.reg c) → Aligned s value) : Landed s none (s.setCsr c value) := by
  have misa : (s.setCsr c value).csrs.reg .misa = s.csrs.reg .misa :=
    setCsr_reg_of_ne s (by rcases own with rfl | rfl | rfl <;> decide) _
  refine ⟨⟨fun wide => ?_, (aligned_congr misa).mpr anchored.lastPc, fun level => ?_⟩, misa,
    fun _ => (aligned_congr misa).mpr aligned, no_pcError⟩
  · unfold hasExtension
    rw [misa]
    exact anchored.compressed wide
  · rw [aligned_congr misa]
    by_cases same : (trapRegs level).epc = c
    · rw [same, setCsr_reg_self]
      exact fits (same ▸ anchored.epc level)
    · rw [setCsr_reg_of_ne s same]
      exact anchored.epc level

theorem guided_writeEpc {c : Csr} (own : c = .mepc ∨ c = .sepc ∨ c = .uepc) (value : Word isa) :
    Sat Guided (do writeMasked c value (← Exec.read pcAlignmentMask) : IssM isa World Unit) where
  holds s := by
    intro anchored aligned
    have ran : ((do writeMasked c value (← Exec.read pcAlignmentMask) : IssM isa World Unit).run s) =
        (.ok (), s.setCsr c (maskedWrite (s.csrs.reg c) value s.pcAlignmentMask)) := rfl
    rw [ran]
    exact landed_setEpc own anchored aligned (aligned_maskedWrite · value)

theorem guided_setNamedCsr (a : CsrAddr) (value : Word isa) :
    Sat Guided (setNamedCsr value a : IssM isa World Unit) := by
  by_cases own : a = .mepc ∨ a = .sepc ∨ a = .uepc
  · rcases own with rfl | rfl | rfl
    · exact guided_writeEpc (.inl rfl) value
    · exact guided_writeEpc (.inr (.inl rfl)) value
    · exact guided_writeEpc (.inr (.inr rfl)) value
  · refine ⟨fun s => ?_⟩
    have step := (written_setNamedCsr a value).holds s
    refine guided_of_same (by rw [step.rest]) (by rw [step.rest]) (fun c anchor => ?_)
      fun e ended bad => ?_
    · apply BitVec.eq_of_getLsbD_eq
      intro i _
      apply step.kept
      rintro ⟨led, writable⟩
      cases c
      case misa => exact absurd ((hardwired_misa isa i).masked a led |>.symm.trans writable) (by decide)
      case mepc => exact own (epc_of_cell machineMode led)
      case sepc => exact own (epc_of_cell supervisorMode led)
      case uepc => exact own (epc_of_cell userMode led)
      all_goals cases anchor
    · obtain ⟨reason, rfl⟩ := step.trap e ended
      exact pcError_trap reason bad

theorem guided_setCsrValue (addr : BitVec 12) (value : Word isa) :
    Sat Guided (setCsrValue addr value : IssM isa World Unit) := by
  rcases setCsrValue_cases addr value with illegal | ⟨a, -, write⟩
  · rw [illegal]
    infer_instance
  · rw [write]
    exact guided_setNamedCsr a value

/-! ## Transfers of control -/

section Transfer

variable {instr : Instruction} {plat : Platform World} {op : Mapping} {s : Iss isa World}

/-- The target of a jump is even. -/
theorem even_target {e : Effect isa} {a b pc next target : Word isa} (even : pc &&& 1 = 0)
    (jump : op.isJump = true) (defined : effect isa instr a b pc next op = some e)
    (transfers : e.target = some target) : target &&& 1 = 0 := by
  have branch : ∀ {taken : Bool},
      branches taken (Spec.add pc ((immB instr).signExtend _)) = some e → target &&& 1 = 0 := by
    intro taken defined
    cases defined
    cases taken with
    | false => cases transfers
    | true =>
      cases transfers
      exact even_add even (bImm_even instr)
  cases op
  case jal =>
    cases defined
    cases transfers
    exact even_add even (jImm_even instr)
  case jalr =>
    cases defined
    cases transfers
    have cleared : (~~~1 : Word isa) &&& 1 = 0 := by cases isa <;> decide
    rw [BitVec.and_assoc, cleared]
    exact BitVec.and_zero
  case beq | bne | blt | bge | bltu | bgeu => exact branch defined
  all_goals cases jump

/-- A target that is not refused is aligned. -/
theorem aligned_of_fits {target : Word isa} (even : target &&& 1 = 0)
    (fits : ¬ (target &&& 3 ≠ 0 ∧ !s.hasExtension Misa.extC)) : Aligned s target := by
  unfold Aligned pcAlignmentMask
  split
  · rw [BitVec.not_not]
    exact even
  · rename_i absent
    rw [BitVec.not_not]
    by_contra odd
    exact fits ⟨odd, by simpa using absent⟩

theorem landed_outcome {e : Effect isa} (anchored : Anchored s) (aligned : Aligned s s.pc)
    (even : ∀ target, e.target = some target → target &&& 1 = 0) :
    Landed s (failure (outcome instr e s).1) (outcome instr e s).2 := by
  obtain ⟨value, target⟩ := e
  unfold outcome
  cases target with
  | none =>
    cases value <;>
      exact ⟨anchored.of_same (fun _ _ => rfl) anchored.lastPc, rfl, fun _ => aligned, no_pcError⟩
  | some target =>
    by_cases misaligned : target &&& 3 ≠ 0 ∧ !s.hasExtension Misa.extC
    · simp only [if_pos misaligned]
      refine ⟨anchored.of_same (fun _ _ => rfl) anchored.lastPc, rfl, nofun, fun _ same => ?_⟩
      cases same
      exact pcError_trap _
    · simp only [if_neg misaligned]
      have fits := aligned_of_fits (even target rfl) misaligned
      cases value <;>
        exact ⟨anchored.of_same (fun _ _ => rfl) anchored.lastPc, rfl, fun _ => fits, no_pcError⟩

theorem guided_jump (jump : op.isJump = true) : SatAt Guided (exec instr plat op) s := by
  have total : ∃ e, effect isa instr (s.regs (Spec.rs1 instr)) (s.regs (Spec.rs2 instr)) s.lastPc s.pc
      op = some e := by
    cases op
    case jal | jalr | beq | bne | blt | bge | bltu | bgeu => exact ⟨_, rfl⟩
    all_goals cases jump
  have other : isM op = false ∧ ¬ (op = .slli ∨ op = .srli ∨ op = .srai) := by
    cases op <;> first | cases jump; done | exact ⟨rfl, by decide⟩
  obtain ⟨e, defined⟩ := total
  intro anchored aligned
  have even : s.lastPc &&& 1 = 0 := even_of_aligned (s := { s with pc := s.lastPc }) anchored.lastPc
  have even' : ∀ target, e.target = some target → target &&& 1 = 0 :=
    fun target => even_target even jump defined
  rw [exec_outcome defined (fun mul => absurd (other.1.symm.trans mul) (by decide))
    (fun shift => absurd shift other.2) even]
  exact landed_outcome anchored aligned even'

theorem guided_returned (level : PrivilegeLevel) (s : Iss isa World) :
    Guided s none (returned level s) := by
  intro anchored _
  have reg : ∀ c, anchors c = true → (returned level s).csrs.reg c = s.csrs.reg c := by
    intro c anchor
    refine setCsr_reg_of_ne s ?_ _
    rintro rfl
    cases anchor
  have misa := reg .misa rfl
  exact ⟨anchored.of_same reg anchored.lastPc, misa,
    fun _ => (aligned_congr misa).mpr (anchored.epc level), no_pcError⟩

theorem guided_return (ret : op.isReturn = true) : SatAt Guided (exec instr plat op) s := by
  have leaves : ∀ level (t : Iss isa World), KnownLevel level →
      SatAt Guided (returnFromTrapHandler level) t := by
    intro level t known
    unfold SatAt
    rw [run_returnFromTrapHandler t known]
    exact guided_returned level t
  cases op
  case uret =>
    exact SatAt.bind (.of_sat inferInstance) fun _ _ _ => .bind (.of_sat inferInstance) fun _ _ _ =>
      leaves userMode _ (.inl rfl)
  case sret =>
    refine SatAt.bind (.of_sat inferInstance) fun _ _ _ => .bind (.of_sat inferInstance) fun _ _ _ => ?_
    exact .bind (.of_sat inferInstance) fun _ _ _ => .bind (.of_sat inferInstance) fun _ _ _ =>
      leaves supervisorMode _ (.inr (.inl rfl))
  case mret => exact leaves machineMode _ (.inr (.inr rfl))
  all_goals cases ret

theorem guided_exec : SatAt Guided (exec instr plat op) s := by
  cases jump : op.isJump with
  | true => exact guided_jump jump
  | false =>
    cases ret : op.isReturn with
    | true => exact guided_return ret
    | false =>
      cases csr : op.isCsr with
      | true => exact satAt_exec_csr Guided (fun _ _ _ => .of_sat (guided_setCsrValue _ _)) csr
      | false => exact .of_sat (sat_exec_straight instr plat csr ret jump)

end Transfer

/-! ## Entering a handler -/

section Handler

variable (plat : Platform World)

theorem guided_entered (level : PrivilegeLevel) (s : Iss isa World) :
    Guided s none (entered plat level s) := by
  intro anchored aligned
  have linked := landed_setEpc (epc_cases level) anchored aligned fun _ => aligned
  have reg : ∀ c, anchors c = true →
      (entered plat level s).csrs.reg c = (s.setCsr (trapRegs level).epc s.pc).csrs.reg c := by
    intro c anchor
    refine setCsr_reg_of_ne _ ?_ _
    rintro rfl
    cases anchor
  refine ⟨linked.anchored.of_same reg linked.anchored.lastPc, (reg .misa rfl).trans linked.misa,
    fun _ => aligned_handlerAddress _ _ _, no_pcError⟩

theorem guided_switchToTrapHandler {level : PrivilegeLevel} (known : KnownLevel level) :
    Sat Guided (switchToTrapHandler plat level : IssM isa World Unit) where
  holds s := by
    rw [run_switchToTrapHandler s plat known]
    exact guided_entered plat level s

theorem guided_writeCsr {c : Csr} (other : anchors c = false) (value : Word isa) :
    Sat Guided (writeCsr c value : IssM isa World Unit) :=
  .update fun s => guided_setCsr s other value

theorem guided_describeTrap (c : Csr) (value : Word isa) (own : c.describesTrap = true) :
    Sat Guided (writeCsr c value : IssM isa World Unit) := by
  refine guided_writeCsr ?_ value
  cases c <;> first | rfl | cases own

theorem guided_prepareTrap (e : SimulationTrap) : Sat Guided (prepareTrap e : IssM isa World _) where
  holds _ := by
    refine satAt_prepareTrap guided_describeTrap ?_ e
    exact fun anchored _ =>
      ⟨anchored.of_same (fun _ _ => rfl) anchored.lastPc, rfl, fun _ => anchored.lastPc, no_pcError⟩

/-- A trap is taken from `last_pc`, wherever the program counter is. -/
theorem guided_takeTrap {s t : Iss isa World} {e : SimulationTrap}
    (raised : Guided s (some (.trap e)) t) :
    Guided s (failure ((takeTrap plat (.trap e)).run t).1) ((takeTrap plat (.trap e)).run t).2 := by
  intro anchored aligned
  have landed := raised anchored aligned
  have same : (takeTrap plat (.trap e)).run t = (takeTrap plat (.trap e)).run { t with pc := t.lastPc } :=
    rfl
  have taken : SatAt Guided (takeTrap plat (.trap e)) { t with pc := t.lastPc } :=
    SatAt.bind (.of_sat (guided_prepareTrap e)) fun _ _ prepared =>
      .of_sat (guided_switchToTrapHandler plat (prepareTrap_known e prepared))
  have home := landed.anchored
  rw [same]
  have after := taken (home.of_same (fun _ _ => rfl) home.lastPc) home.lastPc
  exact ⟨after.anchored, after.misa.trans landed.misa, after.pc, after.fine⟩

theorem guided_interrupt {mode : PrivilegeLevel} (known : KnownLevel mode) (pending : Word isa) :
    Sat Guided (do prepareInterrupt mode pending; switchToTrapHandler plat mode : IssM isa World Unit) := by
  exact .bind (sat_prepareInterrupt guided_describeTrap known pending) fun _ =>
    guided_switchToTrapHandler plat known

end Handler

/-! ## The step -/

section Step

variable {plat : Platform World}

/-- Where a compressed instruction is let through there are some. -/
theorem Anchored.short {s : Iss isa World} (anchored : Anchored s) (enabled : Extends (Misa.C isa) s) :
    s.parcel = 2 := by
  have present : s.hasExtension Misa.extC = true := by
    cases isa with
    | rv64 => exact anchored.compressed rfl
    | rv32 =>
      have bit : ∀ x : Word .rv32, x &&& Misa.C .rv32 ≠ 0 → Misa.extC.get x = 1#1 := by
        intro x set
        obtain ⟨i, both⟩ := (ne_zero_iff_bits _).mp set
        have here : ∀ i < 32, (Misa.C .rv32).getLsbD i = true → i = 2 := by decide
        rw [BitVec.getLsbD_and, Bool.and_eq_true] at both
        rw [here i (BitVec.lt_of_getLsbD both.2) both.2] at both
        exact (get_one_iff x).mpr both.1
      exact beq_iff_eq.mpr (bit _ (enabled rfl))
  unfold parcel
  rw [if_pos present]

/-- Behind an instruction that is executed the program counter is aligned. -/
theorem aligned_behind {s : Iss isa World} (anchored : Anchored s) (aligned : Aligned s s.pc)
    (enabled : s.instr.isCompressed = true → Extends (Misa.C isa) s) :
    Aligned s (s.pc + s.instr.size isa) := by
  refine aligned_add aligned ?_
  unfold Instruction.size
  split
  · rename_i short
    rw [aligned_iff, anchored.short (enabled short)]
    cases isa <;> rfl
  · exact aligned_of_four (by cases isa <;> rfl)

/-- A word that is no instruction is turned down wherever the decoder has left the program
counter. -/
theorem guided_decoded (s : Iss isa World) : SatAt Guided (do
    decode
    exec (← Exec.read instr) plat (← Exec.read op)) s := by
  intro anchored aligned
  cases ran : decode.run s with
  | mk result u =>
    cases result with
    | error e =>
      rw [Exec.run_bind_error ran]
      rcases decode_error ran with ⟨-, rfl, rfl⟩ | ⟨op, instr, -, -, -, -, rfl, rfl⟩
      · refine ⟨anchored, rfl, nofun, fun _ same bad => ?_⟩
        cases same
        rcases bad with bad | bad <;> cases bad
      · refine ⟨anchored.of_same (fun _ _ => rfl) anchored.lastPc, rfl, nofun, fun _ same => ?_⟩
        cases same
        exact pcError_trap _
    | ok _ =>
      rw [Exec.run_bind_ok ran, Exec.run_read_bind, Exec.run_read_bind]
      obtain ⟨op, instr, -, enabled, rfl⟩ := decode_eq_ok.mp ran
      have moved := anchored.of_same (fun _ _ => rfl) anchored.lastPc
        (t := { s with instr := instr, op := op, pc := s.pc + s.instr.size isa })
      by_cases named : op = .undef
      · subst named
        refine ⟨moved, rfl, nofun, fun _ same => ?_⟩
        cases same
        exact pcError_trap _
      · have behind := aligned_behind anchored aligned fun short => enabled short named
        have landed := @guided_exec isa World instr plat op _ moved behind
        exact ⟨landed.anchored, landed.misa, landed.pc, landed.fine⟩

theorem guided_runStep (s : Iss isa World) : SatAt Guided (runStep plat) s := by
  have mip := @guided_writeCsr isa World .mip rfl
  have counted : ∀ k value, Sat Guided (setCounter k value : IssM isa World Unit) :=
    fun k value => .update fun _ => guided_of_same rfl rfl (fun _ _ => by cases k <;> rfl) no_pcError
  have reserved : ∀ n, Sat Guided (setLrScCounter n : IssM isa World Unit) := Locks.counter plat
  have cycles : Sat Guided (Exec.update fun s : Iss isa World =>
      { s with cycleCounter := s.cycleCounter + instrCycles s.op }) :=
    .update fun _ => guided_of_same rfl rfl (fun _ _ => rfl) no_pcError
  have events : Sat Guided (onWorld (Exec.call plat.irqEvents) : IssM isa World _) :=
    sat_onWorld Answers Guided (.call fun _ _ same => by cases same)
  have parts : StepParts plat (@Guided isa World) :=
    { poll := by
        unfold pollInterrupts
        infer_instance
      lastPc := .update fun s anchored aligned =>
        ⟨anchored.of_same (fun _ _ => rfl) aligned, rfl, fun _ => aligned, no_pcError⟩
      check := fun _ _ => inferInstance
      interrupt := fun pending known => guided_interrupt plat known pending
      trap := guided_takeTrap plat
      zero := inferInstance
      status := fun _ => inferInstance
      performance := by
        unfold performanceAndSyncUpdate
        repeat refine .bind inferInstance fun _ => ?_
        infer_instance }
  exact parts.runStep (satAt_execStep_fetched inferInstance fun v _ => guided_decoded v)

end Step

/-! ## Runs -/

/-- A core out of reset, with some `misa`. -/
def resetWith (misa : Word isa) (hart : Word isa) (useEBaseIsa : Bool) (entrypoint sp : Word isa)
    (world : World) (ignoreWfi : Bool) : Iss isa World :=
  { reset hart useEBaseIsa entrypoint sp world with ignoreWfi := ignoreWfi }.setCsr .misa misa

/-- The program counter is aligned in every state of a run, and when `run_step` comes to
`exec_step`; the assertions about it do not fail. -/
theorem pc_aligned {plat : Platform World} {allowed : Iss isa World → Prop} {misa hart : Word isa}
    {useEBaseIsa ignoreWfi : Bool} {entrypoint sp : Word isa} {world : World} {t : Iss isa World}
    (compressed : isa = .rv64 → Misa.extC.get misa = 1#1)
    (entry : Aligned (resetWith misa hart useEBaseIsa entrypoint sp world ignoreWfi) entrypoint)
    (run : Run plat allowed (resetWith misa hart useEBaseIsa entrypoint sp world ignoreWfi) t) :
    t.pc &&& ~~~t.pcAlignmentMask = 0 ∧
    (beforeExec plat t).pc &&& ~~~(beforeExec plat t).pcAlignmentMask = 0 ∧
    ∀ e u, (runStep plat).run t = (.error e, u) →
      e ≠ .abort .misalignedInstruction ∧ e ≠ .abort .oddProgramCounter := by
  have start : Anchored (resetWith misa hart useEBaseIsa entrypoint sp world ignoreWfi) ∧
      Aligned (resetWith misa hart useEBaseIsa entrypoint sp world ignoreWfi) entrypoint := by
    refine ⟨⟨fun wide => ?_, BitVec.zero_and, fun level => ?_⟩, entry⟩
    · exact beq_iff_eq.mpr (compressed wide)
    · rcases epc_cases level with epc | epc | epc <;> rw [epc] <;> exact BitVec.zero_and
  obtain ⟨anchored, aligned⟩ : Anchored t ∧ Aligned t t.pc := by
    refine @Run.invariant _ _ _ _ (fun s => Anchored s ∧ Aligned s s.pc) ?_ ?_ _ _ start run
    · intro s u inv _ ran
      have landed := (guided_runStep s).ok ran inv.1 inv.2
      exact ⟨landed.anchored, landed.pc rfl⟩
    · intro s _ _ _ _ inv
      exact ⟨inv.1.of_same (fun _ _ => rfl) inv.1.lastPc, inv.2⟩
  refine ⟨aligned, aligned, fun e u ran => ?_⟩
  have landed := (guided_runStep t).error ran anchored aligned
  exact not_or.mp (landed.fine e rfl)

/-- RV32 without compressed instructions, out of reset at `0x80`, in a memory that is `jal x0, 4`
over and over. -/
def jumping : Iss .rv32 Flat :=
  resetWith 0 0 false 0x80 0 ⟨repeating (0x0040006f#32 ++ 0x0040006f#32), 0, none⟩ false

theorem jumping_aligned :
    ((runStep Flat.platform).run jumping).2.pc &&&
      ~~~((runStep Flat.platform).run jumping).2.pcAlignmentMask = 0 := by
  have run : Run Flat.platform (fun _ => True) jumping ((runStep Flat.platform).run jumping).2 :=
    Run.start.next trivial (by decide)
  exact (pc_aligned (fun wide => by cases wide) (by decide) run).1

end RiscvVp.Iss
