/-
# RiscvVp.Iss.Hardwired -- the bits of the CSRs that nothing writes

A bit that is outside the write mask of every address that leads to its register, and that
neither traps nor the floating-point unit write, is what reset made it.
-/
import RiscvVp.Iss.CsrWrite
import RiscvVp.Iss.Modes

namespace RiscvVp.Iss

set_option autoImplicit false

open Lib Transition

variable {isa : Isa} {World : Type}

/-- Bit `i` of `c` is written by no CSR instruction, and `c` by nothing else. -/
structure Hardwired (isa : Isa) (c : Csr) (i : Nat) : Prop where
  trap : c.isTrap = false
  status : c ≠ .mstatus
  float : c ≠ .fcsr
  masked : ∀ a : CsrAddr, a.cell isa = some (.reg c) → (a.writeMask isa).getLsbD i = false

/-- Where the configuration of the PMP is kept. -/
theorem cell_pmpcfg {c : Csr} {j : Fin 4} (own : (CsrAddr.pmpcfg j).cell isa = some (.reg c)) :
    c = .pmpcfg j ∨ c = .sedeleg ∨ c = .sideleg := by
  change (if isa = .rv64 ∧ j = 2 then some (Cell.reg .sedeleg) else if isa = .rv64 ∧ j = 3 then
    some (.reg .sideleg) else some (.reg (.pmpcfg j))) = _ at own
  split at own
  · cases own
    exact .inr (.inl rfl)
  split at own
  · cases own
    exact .inr (.inr rfl)
  · cases own
    exact .inl rfl

theorem hardwired_misa (isa : Isa) (i : Nat) : Hardwired isa .misa i := by
  refine ⟨rfl, nofun, nofun, fun a own => ?_⟩
  cases a
  case misa => exact BitVec.getLsbD_zero
  case pmpcfg => rcases cell_pmpcfg own with other | other | other <;> cases other
  all_goals cases isa <;> cases own

theorem hardwired_mie {i : Nat} (outside : (Mask.mie isa).getLsbD i = false) : Hardwired isa .mie i := by
  have views : ∀ {mask : Word isa}, mask &&& Mask.mie isa = mask → mask.getLsbD i = false := by
    intro mask subset
    rw [← subset, BitVec.getLsbD_and, outside, Bool.and_false]
  refine ⟨rfl, nofun, nofun, fun a own => ?_⟩
  cases a
  case mie => exact outside
  case sie => exact views (by cases isa <;> decide)
  case uie => exact views (by cases isa <;> decide)
  case pmpcfg => rcases cell_pmpcfg own with other | other | other <;> cases other
  all_goals cases isa <;> cases own

/-- Hardwired bits stay. -/
def Wired (s : Iss isa World) (_ : Option Exc) (t : Iss isa World) : Prop :=
  ∀ c i, Hardwired isa c i → (t.csrs.reg c).getLsbD i = (s.csrs.reg c).getLsbD i

instance : Closed (@Wired isa World) where
  refl _ := fun _ _ _ => rfl
  trans first second := fun c i fixed => (second c i fixed).trans (first c i fixed)

theorem wired_of_same {s t : Iss isa World} {o : Option Exc} (same : t.csrs.reg = s.csrs.reg) :
    Wired s o t := fun c i _ => by rw [same]

theorem wired_setCsr {s : Iss isa World} {c : Csr} {value : Word isa}
    (other : ∀ i, ¬ Hardwired isa c i) : Wired s none (s.setCsr c value) := by
  intro d i fixed
  rw [setCsr_reg_of_ne]
  rintro rfl
  exact other i fixed

instance : Checks (@Wired isa World) where
  trap _ _ _ _ := wired_of_same rfl
  rethrow _ _ _ _ step := step
  abort _ _ _ := wired_of_same rfl
  scratch _ _ _ _ := wired_of_same rfl
  issue _ _ _ := wired_of_same rfl
  move _ _ := wired_of_same rfl
  cycle := ⟨fun _ => wired_of_same rfl⟩

instance : Indifferent (@Wired isa World) where
  refused _ _ _ _ := wired_of_same rfl
  world _ _ := wired_of_same rfl
  stuck _ _ _ _ := wired_of_same rfl
  counter _ k _ _ := by cases k <;> exact wired_of_same rfl
  reservation _ _ _ := wired_of_same rfl
  mode _ _ _ := wired_of_same rfl
  csr _ _ _ own := wired_setCsr fun _ fixed => absurd (own.symm.trans fixed.trap) (by decide)
  status _ _ _ := wired_setCsr fun _ fixed => fixed.status rfl

instance : Writes (@Wired isa World) where
  reg _ _ _ := wired_of_same rfl
  exit _ := wired_of_same rfl

instance : FpWrites (@Wired isa World) where
  reg _ _ _ := wired_of_same rfl
  flags _ _ := wired_of_same rfl
  dirty := .bind (.update fun _ => wired_setCsr fun _ fixed => fixed.status rfl) fun _ =>
    .update fun _ => wired_setCsr fun _ fixed => fixed.status rfl
  accrue _ := .update fun _ => wired_setCsr fun _ fixed => fixed.float rfl

theorem wired_setCsrValue (addr : BitVec 12) (value : Word isa) :
    Sat Wired (setCsrValue addr value : IssM isa World Unit) where
  holds s := by
    rcases setCsrValue_cases addr value with illegal | ⟨a, -, write⟩
    · rw [illegal]
      exact wired_of_same rfl
    · rw [write]
      have step := (written_setNamedCsr a value).holds s
      intro c i fixed
      refine step.kept c i ?_
      rintro ⟨own, writable⟩
      exact absurd ((fixed.masked a own).symm.trans writable) (by decide)

variable (plat : Platform World)

theorem wired_execStep (s : Iss isa World) : SatAt Wired (execStep plat) s := by
  refine satAt_execStep inferInstance fun u _ _ => satAt_exec plat Wired (fun csr => ?_) fun float =>
    .of_sat (sat_exec_float _ plat float)
  exact satAt_exec_csr Wired (fun _ _ _ => .of_sat (wired_setCsrValue _ _)) csr

theorem wired_runStep (s : Iss isa World) : SatAt Wired (runStep plat) s := by
  have counted : Sat Wired (performanceAndSyncUpdate plat : IssM isa World Unit) :=
    sat_performance plat Wired (Locks.counter plat) fun _ _ => wired_of_same rfl
  exact (stepParts_of_modes plat Wired counted id).runStep (wired_execStep plat _)

theorem wired_beforeExec (s : Iss isa World) : Wired s none (beforeExec plat s) := by
  have linked : Sat Wired (do
      pollInterrupts plat
      Exec.update fun s => { s with lastPc := s.pc } : IssM isa World Unit) :=
    .bind (sat_pollInterrupts plat Wired) fun _ => .update fun _ => wired_of_same rfl
  exact linked.holds s

/-- A hardwired bit is the same in every state of a run. -/
theorem wired_of_run {allowed : Iss isa World → Prop} {s t : Iss isa World} (run : Run plat allowed s t)
    {c : Csr} {i : Nat} (fixed : Hardwired isa c i) :
    (t.csrs.reg c).getLsbD i = (s.csrs.reg c).getLsbD i := by
  induction run with
  | start => rfl
  | @step t _ _ _ ran ih => exact ((wired_runStep plat t).ok ran c i fixed).trans ih
  | debug _ _ _ _ _ ih => exact ih

end RiscvVp.Iss
