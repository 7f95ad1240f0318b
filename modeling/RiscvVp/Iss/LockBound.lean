/-
# RiscvVp.Iss.LockBound -- a core does not keep the bus

A lock that is never given back stops every other hart.  `LR` takes it, and any number of
functions may give it back; what bounds it is the counter: whenever the core has the bus
the counter is positive, it is at most 16 after a step, and every step on which the core
keeps the bus counts down.
-/
import RiscvVp.Iss.Reservation

namespace RiscvVp

set_option autoImplicit false

open Lib Transition

namespace Mapping

/-- `SC`, the stores and `WFI`. -/
def releases (op : Mapping) : Bool := op.isSc || op.isStore || op == .wfi

end Mapping

namespace Iss

open SharedBus Board

variable {isa : Isa} {Dev : Type} (b : Board Dev) {me : BitVec 64} {s t u x y : Iss isa (Shared Dev)}

/-! ## The counter -/

/-- After every step. -/
structure Bounded (me : BitVec 64) (s : Iss isa (Shared Dev)) : Prop where
  hart : s.hartId = me
  nonneg : 0 ≤ s.lrScCounter
  le : s.lrScCounter ≤ 16
  held : HasBus me s → 0 < s.lrScCounter

/-- In the midst of a step from `s`, when its instruction has returned: the step itself is not
yet counted. -/
structure Uncounted (me : BitVec 64) (s x : Iss isa (Shared Dev)) : Prop where
  hart : x.hartId = me
  nonneg : 0 ≤ x.lrScCounter
  le : x.lrScCounter ≤ 17
  held : HasBus me x → 0 < x.lrScCounter
  same : HasBus me s → HasBus me x → x.lrScCounter = s.lrScCounter

theorem Bounded.executed (bounded : Bounded me s) (prepared : Prepared b me s u)
    (ran : (exec u.instr (b.platform me) u.op).run u = (.ok (), x)) : Uncounted me s x := by
  have nonneg := bounded.nonneg
  have le := bounded.le
  have before := prepared.count
  cases reserves : u.op.isLr with
  | false =>
    have flow := Closed.trans prepared.flow ((flow_exec b reserves).ok ran) bounded.hart
    refine ⟨flow.hart, ?_, ?_, fun held => ?_, fun _ held => flow.count rfl held⟩
    · rcases flow.counter with same | zero <;> omega
    · rcases flow.counter with same | zero <;> omega
    · rw [flow.count rfl held]
      exact bounded.held (flow.keeps rfl held).1
  | true =>
    have reserved := exec_reserved b reserves (prepared.flow bounded.hart).hart ran
    refine ⟨reserved.hart, ?_, ?_, fun _ => ?_, fun had held => ?_⟩
    · rcases reserved.counter with ⟨same, -⟩ | fresh <;> omega
    · rcases reserved.counter with ⟨same, -⟩ | fresh <;> omega
    · rcases reserved.counter with ⟨same, left⟩ | fresh <;> omega
    · have left := bounded.held had
      rw [← before] at left ⊢
      exact reserved.count held (by omega)

theorem Uncounted.flow (uncounted : Uncounted me s x) (flow : Flow me x none y) : Uncounted me s y := by
  have flow := flow uncounted.hart
  have nonneg := uncounted.nonneg
  have le := uncounted.le
  refine ⟨flow.hart, ?_, ?_, fun held => ?_, fun had held => ?_⟩
  · rcases flow.counter with same | zero <;> omega
  · rcases flow.counter with same | zero <;> omega
  · rw [flow.count rfl held]
    exact uncounted.held (flow.keeps rfl held).1
  · rw [flow.count rfl held]
    exact uncounted.same had (flow.keeps rfl held).1

theorem Uncounted.bounded (uncounted : Uncounted me s y) (counted : Counted me y t) : Bounded me t := by
  have nonneg := uncounted.nonneg
  have le := uncounted.le
  have left : t.lrScCounter = y.lrScCounter - 1 ∧ y.lrScCounter ≠ 0 ∨ t.lrScCounter = 0 := by
    by_cases zero : y.lrScCounter = 0
    · exact .inr (counted.none zero)
    · exact .inl ⟨counted.less zero, zero⟩
  refine ⟨counted.hart, by omega, by omega, fun held => ?_⟩
  have positive := uncounted.held (counted.keeps held).1
  have more : y.lrScCounter ≠ 1 := fun one => counted.last one held
  rw [counted.less (by omega)]
  omega

/-- One step less, as long as the core has the bus. -/
theorem Uncounted.countdown (uncounted : Uncounted me s y) (counted : Counted me y t)
    (had : HasBus me s) (held : HasBus me t) : t.lrScCounter = s.lrScCounter - 1 := by
  have kept := (counted.keeps held).1
  have positive := uncounted.held kept
  rw [counted.less (by omega), uncounted.same had kept]

/-! ## A step -/

theorem Freed.bounded (freed : Freed me t) : Bounded me t where
  hart := freed.hart
  nonneg := freed.counter.ge
  le := by rw [freed.counter]; decide
  held held := absurd held freed.free

theorem Bounded.stepped (bounded : Bounded me s) (step : Stepped b me s t) : Bounded me t := by
  cases step with
  | handler _ freed => exact freed.bounded
  | instruction _ prepared ran looked counted =>
    exact ((bounded.executed b prepared ran).flow looked).bounded counted

theorem Bounded.countdown (bounded : Bounded me s) (step : Stepped b me s t) (had : HasBus me s)
    (held : HasBus me t) : t.lrScCounter = s.lrScCounter - 1 := by
  cases step with
  | handler _ freed => exact absurd held freed.free
  | instruction _ prepared ran looked counted =>
    exact ((bounded.executed b prepared ran).flow looked).countdown counted had held

theorem Bounded.step (bounded : Bounded me s) (ran : (runStep (b.platform me)).run s = (.ok (), t)) :
    Bounded me t := by
  by_cases stopped : Stopped s
  · rcases runStep_ok ran with ⟨-, rfl⟩ | ⟨going, -⟩
    · exact ⟨bounded.hart, bounded.nonneg, bounded.le, bounded.held⟩
    · exact absurd stopped going
  · exact bounded.stepped b (Iss.stepped b bounded.hart stopped ran)

/-! ## What gives the bus back at once -/

theorem execStore_released (instr : Instruction) (n : Nat) :
    Exec.Leaves (fun t : Iss isa (Shared Dev) => ¬ HasBus me t) (execStore instr (b.platform me) n) := by
  have stored : ∀ addr value, Exec.Leaves (fun t : Iss isa (Shared Dev) => ¬ HasBus me t)
      (storeData (b.platform me) addr n value) := fun _ _ _ _ _ ran => storeData_released b ran
  exact .bind fun _ => .bind fun _ => .bind fun _ => stored _ _

theorem execFpStore_released (instr : Instruction) :
    Exec.Leaves (fun t : Iss isa (Shared Dev) => ¬ HasBus me t) (execFsw instr (b.platform me)) ∧
      Exec.Leaves (fun t : Iss isa (Shared Dev) => ¬ HasBus me t) (execFsd instr (b.platform me)) := by
  have stored : ∀ addr n value, Exec.Leaves (fun t : Iss isa (Shared Dev) => ¬ HasBus me t)
      (storeData (b.platform me) addr n value) := fun _ _ _ _ _ _ ran => storeData_released b ran
  refine ⟨?_, ?_⟩
  · exact .bind fun _ => .bind fun _ => .bind fun _ => .bind fun _ => stored _ _ _
  · exact .bind fun _ => .bind fun _ => .bind fun _ => .bind fun _ => stored _ _ _

theorem execWfi_released (own : s.hartId = me) (ran : (execWfi (b.platform me)).run s = (.ok (), t)) :
    ¬ HasBus me t := by
  unfold execWfi at ran
  rw [Exec.run_bind_ok (run_release b s)] at ran
  have sleep : Sat (@Flow isa Dev me) (onWorld (Platform.await (b.platform me).waitForInterrupt)) :=
    Loads.sleep
  have flow : Flow me (released s) none t := by
    refine Sat.ok ?_ ran
    infer_instance
  intro held
  exact released_free own ((flow own).keeps rfl held).1

theorem exec_released {instr : Instruction} {op : Mapping} (releases : op.releases = true)
    (own : s.hartId = me) (ran : (exec instr (b.platform me) op).run s = (.ok (), t)) :
    ¬ HasBus me t := by
  -- the extension is required first, which changes nothing
  have required : ∀ {m : IssM isa (Shared Dev) Unit}, (do requireIsa (Misa.A isa); m).run s = (.ok (), t) →
      m.run s = (.ok (), t) := by
    intro m ran
    obtain ⟨_, u, required, ran⟩ := Exec.run_bind_eq_ok.mp ran
    rcases run_requireIsa (Misa.A isa) s with present | missing
    · rw [present] at required
      cases required
      exact ran
    · rw [missing] at required
      cases required
  have wide : ∀ {m : IssM isa (Shared Dev) Unit}, (onlyRv64 m).run s = (.ok (), t) →
      m.run s = (.ok (), t) := by
    intro m ran
    cases isa with
    | rv32 => cases ran
    | rv64 => exact ran
  cases op
  case sb | sh | sw => exact execStore_released b instr _ ran
  case sd => exact execStore_released b instr _ (wide ran)
  case fsw => exact (execFpStore_released b instr).1 ran
  case fsd => exact (execFpStore_released b instr).2 ran
  case scW => exact execSc_released b own (required ran)
  case scD => exact execSc_released b own (wide ran)
  case wfi => exact execWfi_released b own ran
  case amoswapW | amoaddW | amoxorW | amoandW | amoorW | amominW | amominuW | amomaxW | amomaxuW =>
    exact executeAmo_released b (required ran)
  case amoswapD | amoaddD | amoxorD | amoandD | amoorD | amominD | amominuD | amomaxD | amomaxuD =>
    exact executeAmo_released b (wide ran)
  all_goals cases releases

/-- The instruction of the step is a store, `SC` or `WFI`, or a handler is entered. -/
def GivesBack (plat : Platform (Shared Dev)) (s : Iss isa (Shared Dev)) : Prop :=
  EntersHandler plat s ∨ ∃ op, nextOp plat (beforeExec plat s) = some op ∧ op.releases = true

theorem Stepped.gives_back (own : s.hartId = me) (step : Stepped b me s t)
    (gives : GivesBack (b.platform me) s) : ¬ HasBus me t := by
  cases step with
  | handler _ freed => exact freed.free
  | @instruction u x y quiet prepared ran looked counted =>
    rcases gives with enters | ⟨op, next, releases⟩
    · exact absurd enters quiet
    have decoded : nextOp (b.platform me) (beforeExec (b.platform me) s) = some u.op := by
      unfold nextOp
      rw [nextInstr_of_decoded prepared.ran]
      rfl
    rw [decoded] at next
    cases next
    have own' : u.hartId = me := (prepared.flow own).hart
    have hart : x.hartId = me := (sameHart_exec.ok ran).trans own'
    intro held
    exact exec_released b releases own' ran ((looked hart).keeps rfl (counted.keeps held).1).1

/-! ## Runs -/

/-- A run of the core `me` in which it has the bus after each of the `n` steps it executes.  Steps
that stop at a breakpoint do not count, nor does the debugger. -/
inductive KeptFor (plat : Platform (Shared Dev)) (me : BitVec 64) (s : Iss isa (Shared Dev)) :
    Nat → Iss isa (Shared Dev) → Prop where
  | start : HasBus me s → KeptFor plat me s 0 s
  | step {n : Nat} {t u : Iss isa (Shared Dev)} : KeptFor plat me s n t → ¬ Stopped t →
      (runStep plat).run t = (.ok (), u) → HasBus me u → KeptFor plat me s (n + 1) u
  | stopped {n : Nat} {t u : Iss isa (Shared Dev)} : KeptFor plat me s n t → Stopped t →
      (runStep plat).run t = (.ok (), u) → KeptFor plat me s n u
  | debug {n : Nat} {t : Iss isa (Shared Dev)} (status : CoreExecStatus)
      (breakpoints : List (Word isa)) (debugMode ignoreWfi : Bool) : KeptFor plat me s n t →
      KeptFor plat me s n { t with
        status := status, breakpoints := breakpoints, debugMode := debugMode, ignoreWfi := ignoreWfi }

/-- Each of these steps is one that the counter had left. -/
theorem KeptFor.spent {n : Nat} (kept : KeptFor (b.platform me) me s n t) (bounded : Bounded me s) :
    Bounded me t ∧ HasBus me t ∧ s.lrScCounter = t.lrScCounter + n := by
  induction kept with
  | start held => exact ⟨bounded, held, by simp⟩
  | step _ going ran held ih =>
    obtain ⟨bounded, had, spent⟩ := ih
    have step := Iss.stepped b bounded.hart going ran
    refine ⟨bounded.stepped b step, held, ?_⟩
    have less := bounded.countdown b step had held
    push_cast
    omega
  | stopped _ stop ran ih =>
    obtain ⟨bounded, had, spent⟩ := ih
    rcases runStep_ok ran with ⟨-, rfl⟩ | ⟨going, -⟩
    · exact ⟨⟨bounded.hart, bounded.nonneg, bounded.le, bounded.held⟩, had, spent⟩
    · exact absurd stop going
  | debug _ _ _ _ _ ih =>
    obtain ⟨bounded, had, spent⟩ := ih
    exact ⟨⟨bounded.hart, bounded.nonneg, bounded.le, bounded.held⟩, had, spent⟩

theorem bounded_of_run (start : Bounded me s) (run : Run (b.platform me) (fun _ => True) s t) :
    Bounded me t :=
  run.invariant (fun bounded _ ran => bounded.step b ran)
    (fun _ _ _ _ bounded => ⟨bounded.hart, bounded.nonneg, bounded.le, bounded.held⟩) start

/-- A core out of reset, before it has ever taken the bus. -/
theorem bounded_reset (hart : Word isa) (useEBaseIsa : Bool) (entrypoint sp : Word isa)
    (world : Shared Dev) (ignoreWfi : Bool) (free : ¬ world.bus.Held (hart.setWidth 64)) :
    Bounded (hart.setWidth 64)
      { reset hart useEBaseIsa entrypoint sp world with ignoreWfi := ignoreWfi } where
  hart := rfl
  nonneg := le_refl _
  le := show (0 : Int) ≤ 16 by decide
  held held := absurd held free

/-- In every run of the core from reset: the counter is never negative; a core that has the bus
has between 1 and 16 steps left; it does not keep the bus over 16 steps; a step that enters a
handler or whose instruction is a store, `SC` or `WFI` gives the bus back, and so does any store
that is made at all. -/
theorem reservation_bounded (hart : Word isa) (useEBaseIsa : Bool) (entrypoint sp : Word isa)
    (world : Shared Dev) (ignoreWfi : Bool) (free : ¬ world.bus.Held (hart.setWidth 64))
    (run : Run (b.platform (hart.setWidth 64)) (fun _ => True)
      { reset hart useEBaseIsa entrypoint sp world with ignoreWfi := ignoreWfi } s) :
    0 ≤ s.lrScCounter ∧
    (HasBus (hart.setWidth 64) s → 0 < s.lrScCounter ∧ s.lrScCounter ≤ 16) ∧
    (∀ n t, KeptFor (b.platform (hart.setWidth 64)) (hart.setWidth 64) s n t → n < 16) ∧
    (∀ t, ¬ Stopped s → (runStep (b.platform (hart.setWidth 64))).run s = (.ok (), t) →
      GivesBack (b.platform (hart.setWidth 64)) s → ¬ HasBus (hart.setWidth 64) t) ∧
    ∀ (t u : Iss isa (Shared Dev)) addr n value,
      (rawStoreData (b.platform (hart.setWidth 64)) addr n value).run t = (.ok (), u) →
      ¬ HasBus (hart.setWidth 64) u := by
  have bounded := bounded_of_run b
    (bounded_reset hart useEBaseIsa entrypoint sp world ignoreWfi free) run
  refine ⟨bounded.nonneg, fun held => ⟨bounded.held held, bounded.le⟩, fun n t kept => ?_,
    fun t going ran gives => ?_, fun _ _ _ _ _ ran => rawStoreData_released b ran⟩
  · obtain ⟨bounded', held', spent⟩ := kept.spent b bounded
    have positive := bounded'.held held'
    have le := bounded.le
    omega
  · exact (Iss.stepped b bounded.hart going ran).gives_back b bounded.hart gives

/-- After `lr.w x5, (x0)` the core has the bus, for 16 more steps. -/
theorem lr_bounded : ∃ s : Iss .rv32 (Shared Flat), HasBus 0 s ∧ 0 < s.lrScCounter ∧ s.lrScCounter ≤ 16 := by
  have run : Run (quietBoard.platform 0) (fun _ => True) (booted 0x100022AF [])
      ((runStep (quietBoard.platform 0)).run (booted 0x100022AF [])).2 :=
    Run.start.next trivial (by decide)
  have held : HasBus 0 ((runStep (quietBoard.platform 0)).run (booted 0x100022AF [])).2 :=
    ⟨by decide, by decide⟩
  have free : ¬ (booted 0x100022AF []).world.bus.Held 0 := fun held => Bool.false_ne_true held.1
  exact ⟨_, held, (reservation_bounded quietBoard 0 false 0 0 _ false free run).2.1 held⟩

end Iss

end RiscvVp
