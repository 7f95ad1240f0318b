/-
# RiscvVp.Iss.Levels -- the privilege level in a run

The level of the core and the one that `mstatus.mpp` holds for later are levels that
exist, and a step keeps them so: a trap stores the level it came from, a trap return
takes the stored one and puts another in its place.  Only a write of `mstatus` by a CSR
instruction is not looked at, and `mpp` takes the encoding that is no level.
-/
import RiscvVp.Iss.Handlers

namespace RiscvVp.Iss

set_option autoImplicit false

open Lib Transition

variable {isa : Isa} {World : Type}

/-- Levels that exist stay so, and there is no error about a level. -/
structure Levelled (s : Iss isa World) (o : Option Exc) (t : Iss isa World) : Prop where
  known : KnownLevels s → KnownLevels t
  error : ∀ e, o = some e → LevelError e → ¬ KnownLevels s

instance : Closed (@Levelled isa World) where
  refl _ := ⟨id, nofun⟩
  trans first second :=
    { known := fun known => second.known (first.known known)
      error := fun e ended bad known => second.error e ended bad (first.known known) }

theorem Plain.levelled {plat : Platform World} {s t : Iss isa World} {o : Option Exc}
    (plain : Plain plat s o t) : Levelled s o t := ⟨plain.knownLevels.mpr, plain.levels⟩

instance (plat : Platform World) : Le (@Plain isa World plat) Levelled := ⟨Plain.levelled⟩

theorem levelled_of_plain {α : Type} {plat : Platform World} {m : IssM isa World α}
    (sat : Sat (Plain plat) m) : Sat Levelled m := sat.mono Plain.levelled

/-! ## Small steps -/

theorem levelled_update {f : Iss isa World → Iss isa World}
    (known : ∀ s, KnownLevels s → KnownLevels (f s)) :
    Sat Levelled (Exec.update f : IssM isa World Unit) := .update fun s => ⟨known s, nofun⟩

theorem levelled_raise {α : Type} {e : Exc} (ordinary : ¬ LevelError e) :
    Sat Levelled (Exec.raise e : IssM isa World α) :=
  .raise fun _ => ⟨id, fun _ same bad => absurd (Option.some.inj same ▸ bad) ordinary⟩

theorem levelled_writeCsr {c : Csr} (other : c ≠ .mstatus) (value : Word isa) :
    Sat Levelled (writeCsr c value : IssM isa World Unit) := by
  apply levelled_update
  rintro s ⟨prv, mpp⟩
  refine ⟨prv, ?_⟩
  rwa [setCsr_reg_of_ne s (Ne.symm other)]

theorem levelled_writeField {len : Nat} {f : Field len} (apart : Mstatus.mpp.Disjoint f)
    (value : BitVec len) : Sat Levelled (writeField .mstatus f value : IssM isa World Unit) := by
  apply levelled_update
  rintro s ⟨prv, mpp⟩
  refine ⟨prv, ?_⟩
  rwa [setCsr_reg_self, Field.get_set_of_disjoint apart]

theorem mpp_fits (isa : Isa) : Mstatus.mpp.Fits isa.xlen := by
  cases isa <;> decide

theorem levelled_writeMpp {level : PrivilegeLevel} (exists_ : KnownLevel level) :
    Sat Levelled (writeField .mstatus Mstatus.mpp level : IssM isa World Unit) := by
  apply levelled_update
  rintro s ⟨prv, -⟩
  refine ⟨prv, ?_⟩
  rwa [setCsr_reg_self, Field.get_set (mpp_fits isa)]

theorem levelled_setPrv {level : PrivilegeLevel} (exists_ : KnownLevel level) :
    Sat Levelled (setPrv level : IssM isa World Unit) :=
  levelled_update fun _ known => ⟨exists_, known.2⟩

instance : Checks (@Levelled isa World) where
  trap _ _ _ _ := ⟨id, fun _ same bad => by cases same; exact bad.elim⟩
  rethrow _ _ _ _ step := ⟨step.known, fun _ same bad => by cases same; exact bad.elim⟩
  abort s cause explained := ⟨id, fun _ same bad => by
    cases same
    cases cause <;> first | exact explained | exact bad.elim⟩
  scratch _ _ _ _ := ⟨id, nofun⟩
  issue _ _ _ := ⟨id, nofun⟩
  move _ _ := ⟨id, nofun⟩
  cycle := .bind inferInstance fun _ => levelled_update fun _ known => known

/-! ## Trap returns -/

section Returns

theorem levelled_execUret : Sat Levelled (execUret : IssM isa World Unit) := by
  have uie := @levelled_writeField isa World 1 Mstatus.uie (by decide)
  have upie := @levelled_writeField isa World 1 Mstatus.upie (by decide)
  have user := @levelled_setPrv isa World userMode (.inl rfl)
  unfold execUret returnFromUserMode
  repeat refine .bind inferInstance fun _ => ?_
  infer_instance

theorem levelled_execSret : Sat Levelled (execSret : IssM isa World Unit) := by
  have sie := @levelled_writeField isa World 1 Mstatus.sie (by decide)
  have spie := @levelled_writeField isa World 1 Mstatus.spie (by decide)
  have spp := @levelled_writeField isa World 1 Mstatus.spp (by decide)
  have previous : ∀ spp : BitVec 1, Sat Levelled (setPrv (spp.setWidth 2) : IssM isa World Unit) := by
    intro spp
    apply levelled_setPrv
    have both : spp.setWidth 2 = userMode ∨ spp.setWidth 2 = supervisorMode := by
      revert spp
      decide
    exact both.imp_right .inl
  unfold execSret returnFromSupervisorMode
  repeat refine .bind inferInstance fun _ => ?_
  infer_instance

/-- The level is taken from `mpp`, which holds one. -/
theorem levelled_returnFromMachineMode :
    Sat Levelled (returnFromMachineMode : IssM isa World Unit) where
  holds s := by
    have mie := @levelled_writeField isa World 1 Mstatus.mie (by decide)
    have mpie := @levelled_writeField isa World 1 Mstatus.mpie (by decide)
    have mpp : ∀ user : Bool, Sat Levelled (writeField .mstatus Mstatus.mpp
        (if user then userMode else machineMode) : IssM isa World Unit) := by
      intro user
      apply levelled_writeMpp
      cases user
      · exact .inr (.inr rfl)
      · exact .inl rfl
    unfold returnFromMachineMode
    refine SatAt.bind (.of_sat inferInstance) fun level t read => ?_
    cases read
    refine .bind ⟨fun known => ⟨known.2, known.2⟩, nofun⟩ fun _ _ _ => .of_sat ?_
    repeat refine .bind inferInstance fun _ => ?_
    infer_instance

end Returns

/-! ## CSR instructions -/

/-- The instruction writes `mstatus` with the encoding in `mpp` that is no level. -/
def ReservesMpp (s : Iss isa World) (op : Mapping) (instr : Instruction) : Prop :=
  op.isCsr = true ∧ instr.csr.setWidth 12 = CsrAddr.mstatus.addr ∧ CsrWrites instr op ∧
    Mstatus.mpp.get (csrResult instr op (s.csrs.reg .mstatus &&& Mask.mstatusRead isa)
      (csrSource instr op s)) = 2#2

theorem knownLevel_iff (level : PrivilegeLevel) : KnownLevel level ↔ level ≠ 2#2 := by
  unfold KnownLevel
  revert level
  decide

theorem run_getCsrValue_mstatus (plat : Platform World) (s : Iss isa World) :
    (getCsrValue plat CsrAddr.mstatus.addr).run s =
      (.ok (s.csrs.reg .mstatus &&& Mask.mstatusRead isa), s) := by
  have named : CsrAddr.named CsrAddr.mstatus.addr = some .mstatus := by decide
  have counter : isCounterAddr isa CsrAddr.mstatus.addr = false := by cases isa <;> decide
  unfold getCsrValue validateCsrCounterReadAccessRights
  rw [named, counter]
  rfl

theorem run_setCsrValue_mstatus (value : Word isa) (s : Iss isa World) :
    (setCsrValue CsrAddr.mstatus.addr value).run s =
      (.ok (), s.setCsr .mstatus (maskedWrite (s.csrs.reg .mstatus) value
        (Mask.mstatusWrite isa))) := by
  have named : CsrAddr.named CsrAddr.mstatus.addr = some .mstatus := by decide
  unfold setCsrValue
  rw [named]
  rfl

theorem mpp_maskedWrite (x value : Word isa) :
    Mstatus.mpp.get (maskedWrite x value (Mask.mstatusWrite isa)) = Mstatus.mpp.get value := by
  have writable : ∀ i < 13, 11 ≤ i → (Mask.mstatusWrite isa).getLsbD i = true := by
    cases isa <;> decide
  apply Field.get_congr
  rintro i ⟨low, high⟩
  rw [getLsbD_maskedWrite, writable i high low]
  rfl

/-- Only `mstatus` itself shows `mpp`. -/
theorem Written.mpp {a : CsrAddr} (other : a ≠ .mstatus) {s t : Iss isa World} {o : Option Exc}
    (written : Written a s o t) :
    Mstatus.mpp.get (t.csrs.reg .mstatus) = Mstatus.mpp.get (s.csrs.reg .mstatus) := by
  apply Field.get_congr
  rintro i ⟨low, high⟩
  apply written.kept
  rintro ⟨own, writable⟩
  have views : ∀ i < 13, 11 ≤ i → (Mask.sstatusWrite isa).getLsbD i = false ∧
      (Mask.ustatus isa).getLsbD i = false := by
    cases isa <;> decide
  have hidden := views i high low
  rcases CsrAddr.cell_mstatus own with rfl | rfl | rfl
  · exact other rfl
  · exact absurd writable (Bool.eq_false_iff.mp hidden.1)
  · exact absurd writable (Bool.eq_false_iff.mp hidden.2)

theorem levelled_setCsrValue {addr : BitVec 12} {value : Word isa}
    (fine : addr = CsrAddr.mstatus.addr → KnownLevel (Mstatus.mpp.get value)) :
    Sat Levelled (setCsrValue addr value : IssM isa World Unit) where
  holds s := by
    by_cases own : addr = CsrAddr.mstatus.addr
    · rw [own, run_setCsrValue_mstatus]
      refine ⟨fun known => ⟨known.1, ?_⟩, nofun⟩
      rw [setCsr_reg_self, mpp_maskedWrite]
      exact fine own
    rcases setCsrValue_cases addr value with illegal | ⟨a, named, write⟩
    · rw [illegal]
      exact Sat.holds s
    · have other : a ≠ .mstatus := fun same => own (same ▸ named.symm)
      have step := (written_setNamedCsr a value).holds s
      rw [write]
      refine ⟨fun known => ⟨?_, ?_⟩, fun e ended bad => ?_⟩
      · rw [step.rest]
        exact known.1
      · rw [step.mpp other]
        exact known.2
      · obtain ⟨reason, rfl⟩ := step.trap e ended
        exact bad.elim

theorem levelled_csr {plat : Platform World} {instr : Instruction} {op : Mapping}
    {s : Iss isa World} (csr : op.isCsr = true) (fine : ¬ ReservesMpp s op instr) :
    SatAt Levelled (exec instr plat op) s := by
  refine satAt_exec_csr (Plain plat) ?_ csr
  intro old u read writes _
  refine .of_sat (levelled_setCsrValue fun own => ?_)
  rw [knownLevel_iff]
  intro reserved
  refine fine ⟨csr, own, writes, ?_⟩
  by_cases reads : CsrReads instr op
  · have got := read.read reads
    rw [own, run_getCsrValue_mstatus] at got
    cases got
    exact reserved
  · have swap : op.isCsrSwap = true := (not_not.mp reads).1
    cases op
    case csrrw | csrrwi => exact reserved
    all_goals cases swap

/-! ## The instruction -/

theorem exec_levelled {plat : Platform World} {instr : Instruction} {op : Mapping}
    {s : Iss isa World} (fine : ¬ ReservesMpp s op instr) :
    SatAt Levelled (exec instr plat op) s := by
  cases csr : op.isCsr with
  | true => exact levelled_csr csr fine
  | false =>
    cases ret : op.isReturn with
    | false => exact .of_sat (levelled_of_plain (plain_exec instr plat csr ret))
    | true =>
      cases op
      case uret => exact .of_sat levelled_execUret
      case sret => exact .of_sat levelled_execSret
      case mret => exact .of_sat levelled_returnFromMachineMode
      all_goals cases ret

/-! ## Traps and interrupts -/

section Traps

variable (plat : Platform World)

theorem levelled_releaseLrScReservation :
    Sat Levelled (releaseLrScReservation plat : IssM isa World Unit) :=
  levelled_of_plain (inferInstance : Sat (Plain plat) _)

theorem knownLevels_entered {mode : PrivilegeLevel} (exists_ : KnownLevel mode) {s : Iss isa World}
    (known : KnownLevels s) : KnownLevels (entered plat mode s) := by
  refine ⟨exists_, ?_⟩
  by_cases machine : mode = machineMode
  · -- the level the trap came from goes to `mpp`
    have top : ∀ pp : PrivilegeLevel, pp ≤ machineMode := by decide
    subst machine
    rw [show Mstatus.mpp.get ((entered plat machineMode s).csrs.reg .mstatus) = s.prv from
      previous_pushed exists_ (top s.prv)]
    exact known.1
  · have stack : SameStack machineMode (s.csrs.reg .mstatus) (pushed mode s.prv (s.csrs.reg .mstatus)) :=
      sameStack_pushed exists_ (.inr (.inr rfl)) (Ne.symm machine)
    rw [show Mstatus.mpp.get ((entered plat mode s).csrs.reg .mstatus) =
      Mstatus.mpp.get (s.csrs.reg .mstatus) from stack.previous]
    exact known.2

theorem levelled_switchToTrapHandler {mode : PrivilegeLevel} (exists_ : KnownLevel mode) :
    Sat Levelled (switchToTrapHandler plat mode : IssM isa World Unit) where
  holds s := by
    rw [run_switchToTrapHandler s plat exists_]
    exact ⟨knownLevels_entered plat exists_, nofun⟩

theorem levelled_describeTrap (c : Csr) (value : Word isa) (own : c.describesTrap = true) :
    Sat Levelled (writeCsr c value : IssM isa World Unit) := by
  refine levelled_writeCsr ?_ value
  rintro rfl
  cases own

theorem levelled_prepareTrap (e : SimulationTrap) :
    Sat Levelled (prepareTrap e : IssM isa World PrivilegeLevel) where
  holds _ := satAt_prepareTrap levelled_describeTrap (.of_sat inferInstance) e

theorem levelled_takeTrap (e : SimulationTrap) :
    Sat Levelled (takeTrap plat (.trap e) : IssM isa World Unit) where
  holds _ :=
    SatAt.bind (.of_sat (levelled_prepareTrap e)) fun _ _ prepared =>
      .of_sat (levelled_switchToTrapHandler plat (prepareTrap_known e prepared))

theorem stepParts_levelled : StepParts plat (@Levelled isa World) where
  poll := by
    have mip := @levelled_writeCsr isa World .mip (by decide)
    have events : Sat Levelled (onWorld (Exec.call plat.irqEvents) : IssM isa World (List IrqEvent)) :=
      ⟨fun _ => ⟨id, nofun⟩⟩
    unfold pollInterrupts
    infer_instance
  lastPc := levelled_update fun _ known => known
  check condition _ := by
    have aborted : Sat Levelled (abort .zeroRegister : IssM isa World Unit) := levelled_raise id
    unfold assert
    infer_instance
  interrupt pending exists_ :=
    .bind (sat_prepareInterrupt levelled_describeTrap exists_ pending) fun _ =>
      levelled_switchToTrapHandler plat exists_
  trap step :=
    have caught : Levelled _ none _ := ⟨step.known, nofun⟩
    Closed.trans caught ((levelled_takeTrap plat _).holds _)
  zero := levelled_update fun _ known => known
  status _ := levelled_update fun _ known => known
  performance := by
    have release := @levelled_releaseLrScReservation isa World plat
    have instret : ∀ k value, Sat Levelled (setCounter k value : IssM isa World Unit) := by
      intro k value
      apply levelled_update
      cases k <;> exact fun _ known => known
    have counter : ∀ n, Sat Levelled (setLrScCounter n : IssM isa World Unit) :=
      fun n => levelled_update fun _ known => known
    have cycles : Sat Levelled (Exec.update fun s : Iss isa World =>
        { s with cycleCounter := s.cycleCounter + instrCycles s.op }) :=
      levelled_update fun _ known => known
    unfold performanceAndSyncUpdate
    infer_instance

end Traps

/-! ## Runs -/

section Runs

variable {plat : Platform World}

theorem reservesMpp_of_still {s u : Iss isa World} (still : Still plat s none u) {op : Mapping}
    {instr : Instruction} : ReservesMpp u op instr ↔ ReservesMpp s op instr := by
  have source : (csrSource instr op u : Word isa) = csrSource instr op s := by
    cases op <;> first | rfl | exact congrFun still.regs _
  unfold ReservesMpp
  rw [still.reg, source]

/-- The instruction at the program counter of `s` does not put the reserved encoding into
`mpp`. -/
def KeepsMpp (plat : Platform World) (s : Iss isa World) : Prop :=
  ∀ op instr, nextInstr plat s = some (op, instr) → ¬ ReservesMpp s op instr

theorem execStep_levelled {s : Iss isa World} (fine : KeepsMpp plat s) :
    SatAt Levelled (execStep plat) s := by
  apply satAt_execStep (levelled_of_plain (inferInstance : Sat (Plain plat) _))
  intro u still prepared
  exact exec_levelled fun reserved =>
    fine _ _ (nextInstr_of_decoded prepared) ((reservesMpp_of_still still).mp reserved)

/-- The level of the core, and every level that data can be accessed with, exist. -/
def LevelsExist (s : Iss isa World) : Prop :=
  KnownLevel s.prv ∧ ∀ type, KnownLevel (effectiveMode type s)

/-- In a run without a CSR instruction that writes the reserved encoding into `mpp` the
levels exist in every state, and the last step ends in no error about them. -/
theorem levelsExist_of_run {s : Iss isa World}
    (reached : ReachableBy plat (fun t => KeepsMpp plat (beforeExec plat t)) s) :
    LevelsExist s ∧ (KeepsMpp plat (beforeExec plat s) →
      ∀ e t, (runStep plat).run s = (.error e, t) → ¬ LevelError e) := by
  have step : ∀ {s : Iss isa World}, KeepsMpp plat (beforeExec plat s) →
      SatAt Levelled (runStep plat) s :=
    fun fine => (stepParts_levelled plat).runStep (execStep_levelled fine)
  have known : KnownLevels s := by
    refine reached.invariant ?_ ?_ ?_
    · intros
      have zero : Mstatus.mpp.get (mstatusInit isa) = userMode := by cases isa <;> decide
      exact ⟨.inr (.inr rfl), .inl zero⟩
    · exact fun known fine ran => ((step fine).ok ran).known known
    · exact fun _ _ _ _ known => known
  exact ⟨⟨known.1, knownLevel_effectiveMode known⟩,
    fun fine e t ran bad => ((step fine).error ran).error e rfl bad known⟩

end Runs

/-- A program: `lui x5, 1`, `csrrw x0, mstatus, x5`, and `mret` from there on. -/
def mppProgram : Iss .rv64 Flat :=
  reset 0 false 0 0 ⟨ByteMemory.write (repeating 0x3020007330200073) 0 8 0x30029073000012B7#64, 0, none⟩

/-- `mret` out of reset, to user mode. -/
theorem levelsExist_after_mret : ((runStep Flat.platform).run (everywhere 0x30200073)).2.prv = userMode ∧
    LevelsExist ((runStep Flat.platform).run (everywhere 0x30200073)).2 := by
  have next : nextInstr Flat.platform (beforeExec Flat.platform (everywhere 0x30200073)) =
      some (.mret, 0x30200073) := by decide
  have kept : KeepsMpp Flat.platform (beforeExec Flat.platform (everywhere 0x30200073)) := by
    intro op instr same
    cases next.symm.trans same
    rintro ⟨csr, -⟩
    cases csr
  have reached : ReachableBy Flat.platform (fun t => KeepsMpp Flat.platform (beforeExec Flat.platform t))
      ((runStep Flat.platform).run (everywhere 0x30200073)).2 :=
    ⟨0, false, 0, 0, _, false, Run.start.next kept (by decide)⟩
  exact ⟨by decide, (levelsExist_of_run reached).1⟩

/-- The program runs into a level that does not exist. -/
theorem mret_to_reserved_level : ¬ ∀ s : Iss .rv64 Flat, Reachable Flat.platform s →
    LevelsExist s := by
  intro exist
  have booted : Run Flat.platform (fun _ => True) mppProgram mppProgram := .start
  have first := booted.next trivial (by decide)
  have second := first.next trivial (by decide)
  have third := second.next trivial (by decide)
  have reached : Reachable Flat.platform _ := ⟨0, false, 0, 0, _, false, third⟩
  exact absurd (exist _ reached).1 (by rw [knownLevel_iff]; decide)

end RiscvVp.Iss
