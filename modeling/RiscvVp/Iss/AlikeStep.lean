/-
# RiscvVp.Iss.AlikeStep -- a step of alike cores

Two alike cores that no breakpoint stops make the same step, and are alike after it, unless the
instruction is a return from a trap to an address that may be different, or the level is one that
reads the registers that may be.
-/
import RiscvVp.Iss.AlikeExec
import RiscvVp.Iss.Run
import RiscvVp.Lib.Triple

namespace RiscvVp

set_option autoImplicit false

open Lib

variable {isa : Isa} {World : Type}

/-- The next instruction is no return to an address that may be different. -/
def Veil.NoReturn (v : Veil isa) (plat : Platform World) (s : Iss isa World) : Prop :=
  (Iss.nextOp plat s = some .mret → ¬ v.secret .mepc) ∧
    (Iss.nextOp plat s = some .sret → ¬ v.secret .sepc)

namespace Iss

variable {v : Veil isa} {s s' : Iss isa World} (plat : Platform World)

/-! ## The instruction -/

/-- The addresses of the user level are never guarded. -/
theorem uepc_open {level : PrivilegeLevel} (guarded : v.Guarded level) : ¬ v.secret .uepc := by
  intro secret
  have above := guarded .uepc .uepc rfl secret
  have least : csrPrv CsrAddr.uepc.addr = 0 := by decide
  rw [least] at above
  exact absurd above BitVec.not_lt_zero

theorem blindAt_exec (alike : Alike v s s') (guarded : v.Guarded s.prv) {instr : Instruction}
    {op : Mapping} (mret : op = .mret → ¬ v.secret .mepc) (sret : op = .sret → ¬ v.secret .sepc) :
    BlindAt (Alike v) (exec instr plat op) s s' := by
  cases csr : op.isCsr with
  | true =>
    cases op
    case csrrw | csrrwi => exact blindAt_execCsrWrite plat alike guarded _
    case csrrs | csrrc | csrrsi | csrrci => exact blindAt_execCsrModify plat alike guarded _ _
    all_goals cases csr
  | false =>
    cases ret : op.isReturn with
    | true =>
      cases op
      case mret => exact (blind_mret v (mret rfl)).same alike
      case sret => exact (blind_sret v (sret rfl)).same alike
      case uret => exact (blind_uret v (uepc_open guarded)).same alike
      all_goals cases ret
    | false => exact (blind_exec v instr plat csr ret).same alike

instance {α : Type} (e : Exc) : Blind (Alike v) (fetchFault e : IssM isa World α) := by
  cases e <;> unfold fetchFault <;> infer_instance

instance : Blind (Alike v) (fetch plat : IssM isa World Unit) := by
  unfold fetch
  infer_instance

instance : Blind (Alike v) (decode : IssM isa World Unit) := by
  unfold decode
  refine .bind inferInstance fun instr => .bind inferInstance fun pc => ?_
  split
  · split <;> infer_instance
  · infer_instance

theorem blindAt_execStep (alike : Alike v s s') (guarded : v.Guarded s.prv)
    (noReturn : v.NoReturn plat s) : BlindAt (Alike v) (execStep plat) s s' := by
  have sees : s'.pc = s.pc ∧ s'.pcAlignmentMask = s.pcAlignmentMask := by
    refine ⟨?_, Except.ok.inj ((inferInstance : Blind (Alike v)
      (Exec.read pcAlignmentMask : IssM isa World (Word isa))).same alike).1.symm⟩
    obtain ⟨status, reg, -, -, rfl⟩ := alike
    rfl
  unfold execStep
  refine BlindAt.read_bind (by rw [sees.1, sees.2]) ?_
  refine (BlindAt.of_blind inferInstance alike).bind fun _ t t' checked checked' same => ?_
  obtain ⟨-, rfl⟩ := assert_ok checked
  refine (BlindAt.of_blind inferInstance same).bind fun _ u u' fetched _ same => ?_
  refine (BlindAt.of_blind inferInstance same).bind fun _ w w' decoded _ same => ?_
  have prepared : (do fetch plat; decode : IssM isa World Unit).run t = (.ok (), w) :=
    Exec.run_bind_eq_ok.mpr ⟨(), u, fetched, decoded⟩
  have still : Still plat t none w := Sat.ok inferInstance prepared
  have next : nextOp plat t = some w.op := by
    unfold nextOp
    rw [nextInstr_of_decoded prepared]
    rfl
  have shown : w'.instr = w.instr ∧ w'.op = w.op := by
    obtain ⟨status, reg, -, -, rfl⟩ := same
    exact ⟨rfl, rfl⟩
  refine BlindAt.read_bind (by rw [shown.1]) (BlindAt.read_bind (by rw [shown.2]) ?_)
  refine blindAt_exec plat same (still.prv ▸ guarded) (fun isMret => ?_) fun isSret => ?_
  · exact noReturn.1 (isMret ▸ next)
  · exact noReturn.2 (isSret ▸ next)

/-! ## Around the instruction -/

instance : Blind (Alike v) (pollInterrupts plat : IssM isa World Unit) := by
  unfold pollInterrupts
  infer_instance

instance (mtval : BitVec 64) : Blind (Alike v) (trapValue mtval : IssM isa World (Word isa)) := by
  unfold trapValue
  infer_instance

instance (e : SimulationTrap) : Blind (Alike v) (prepareTrap e : IssM isa World PrivilegeLevel) := by
  unfold prepareTrap
  repeat refine .bind inferInstance fun _ => ?_
  infer_instance

instance (mode : PrivilegeLevel) (pending : Word isa) :
    Blind (Alike v) (prepareInterrupt mode pending : IssM isa World Unit) := by
  unfold prepareInterrupt
  split <;> infer_instance

instance (mode : PrivilegeLevel) :
    Blind (Alike v) (switchToTrapHandler plat mode : IssM isa World Unit) := by
  unfold switchToTrapHandler
  repeat refine .bind inferInstance fun _ => ?_
  split
  · repeat refine .bind inferInstance fun _ => ?_
    infer_instance
  split
  · repeat refine .bind inferInstance fun _ => ?_
    infer_instance
  · infer_instance

instance (e : Exc) : Blind (Alike v) (takeTrap plat e : IssM isa World Unit) := by
  cases e <;> unfold takeTrap <;> infer_instance

instance : Blind (Alike v) (performanceAndSyncUpdate plat : IssM isa World Unit) := by
  have counted : Blind (Alike v) (Exec.update fun s =>
      { s with cycleCounter := s.cycleCounter + instrCycles s.op } : IssM isa World Unit) :=
    blind_update v fun _ _ _ _ _ => ⟨rfl, rfl, rfl⟩
  unfold performanceAndSyncUpdate
  infer_instance

theorem stopped_iff : (s.debugMode && decide (s.pc ∈ s.breakpoints)) = true ↔ Stopped s := by
  simp [Stopped]

/-- A step of two cores that a breakpoint stops both, or neither. -/
theorem blindAt_runStep (alike : Alike v s s') (guarded : v.Guarded s.prv)
    (noReturn : v.NoReturn plat (beforeExec plat s)) (both : Stopped s ↔ Stopped s') :
    BlindAt (Alike v) (runStep plat) s s' := by
  have zero : s'.regs 0 = s.regs 0 := by
    obtain ⟨status, reg, -, -, rfl⟩ := alike
    rfl
  have linked : Blind (Alike v) (Exec.update fun s => { s with lastPc := s.pc } : IssM isa World Unit) :=
    blind_update v fun _ _ _ _ _ => ⟨rfl, rfl, rfl⟩
  unfold runStep
  by_cases stopped : Stopped s
  · have here := stopped_iff.mpr stopped
    refine BlindAt.read_bind (by rw [if_pos here, if_pos (stopped_iff.mpr (both.mp stopped)), zero]) ?_
    rw [if_pos here]
    exact BlindAt.of_blind inferInstance alike
  have going := mt stopped_iff.mp stopped
  have going' := mt stopped_iff.mp (mt both.mpr stopped)
  refine BlindAt.read_bind (by rw [if_neg going, if_neg going', zero]) ?_
  rw [if_neg going]
  refine (BlindAt.of_blind inferInstance alike).bind fun _ t t' checked _ same => ?_
  obtain ⟨-, rfl⟩ := assert_ok checked
  refine (BlindAt.of_blind inferInstance same).bind fun _ u u' polled _ same => ?_
  refine (BlindAt.of_blind linked same).bind fun _ w w' moved _ same => ?_
  have reached : w = beforeExec plat t := by
    cases moved
    unfold beforeExec
    rw [Exec.run_bind_ok polled]
    rfl
  refine BlindAt.bind (BlindAt.tryCatch (BlindAt.bind ?_ ?_) ?_) fun _ _ _ _ _ same => ?_
  · exact blindAt_execStep plat same (reached ▸ guarded) (reached ▸ noReturn)
  · exact fun _ _ _ _ _ same => BlindAt.of_blind
      (.bind inferInstance fun _ => .bind inferInstance fun found => by split <;> infer_instance) same
  · exact fun _ _ _ same => BlindAt.of_blind inferInstance same
  · exact BlindAt.of_blind inferInstance same

end Iss

end RiscvVp
