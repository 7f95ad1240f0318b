/-
# RiscvVp.Iss.Counters -- the counters and their shadows

`MCYCLE`, `TIME` and `MTIME` are computed when they are read, and kept in the table;
`CYCLE` is what the table has, and so is as old as the last read of `MCYCLE`.  It agrees
with `MCYCLE`, and does not change when `MCYCLE` is read, exactly in the states in which no
cycle was counted since.
-/
import RiscvVp.Iss.CsrWrite
import RiscvVp.Iss.Modes
import RiscvVp.Platform.Clint

namespace RiscvVp

set_option autoImplicit false

open Lib Transition

/-- The platform has a CLINT. -/
def Platform.Clocked {World : Type} (plat : Platform World) (clint : World → Clint) : Prop :=
  ∀ w, (plat.updateAndGetMtime w).1 = (clint w).updateAndGetMtime.1 ∧
    clint (plat.updateAndGetMtime w).2 = (clint w).updateAndGetMtime.2

/-! ## Twelve addresses -/

/-- The address of a counter or its shadow, of the whole register or its upper half. -/
def counterAddr : (machine : Bool) → Counter → (high : Bool) → CsrAddr
  | false, .cycle, false => .cycle
  | false, .cycle, true => .cycleh
  | false, .time, false => .time
  | false, .time, true => .timeh
  | false, .instret, false => .instret
  | false, .instret, true => .instreth
  | true, .cycle, false => .mcycle
  | true, .cycle, true => .mcycleh
  | true, .time, false => .mtime
  | true, .time, true => .mtimeh
  | true, .instret, false => .minstret
  | true, .instret, true => .minstreth

theorem named_counterAddr (machine : Bool) (k : Counter) (high : Bool) :
    CsrAddr.named (counterAddr machine k high).addr = some (counterAddr machine k high) := by
  cases machine <;> cases k <;> cases high <;> decide

/-- The part of a counter that an address shows. -/
def counterHalf (isa : Isa) (high : Bool) (value : BitVec 64) : Word isa :=
  if high then (value >>> 32).setWidth isa.xlen else value.setWidth isa.xlen

namespace Iss

variable {isa : Isa} {World : Type}

section Read

variable (plat : Platform World)

/-- The table after a read. -/
def refresh (machine : Bool) (k : Counter) (s : Iss isa World) : Iss isa World :=
  match k, machine with
  | .time, _ =>
      let (mtime, w) := plat.updateAndGetMtime s.world
      { s.withWorld w with csrs := s.csrs.setCounter .time mtime }
  | .cycle, true => { s with csrs := s.csrs.setCounter .cycle (BitVec.ofNat 64 s.cycleCounter) }
  | .cycle, false | .instret, _ => s

theorem run_getNamedCsr_counter {machine : Bool} {k : Counter} {high : Bool}
    (known : high = true → isa = .rv32) (s : Iss isa World) :
    (getNamedCsr plat (counterAddr machine k high)).run s =
      (.ok (counterHalf isa high ((refresh plat machine k s).csrs.counter k)),
        refresh plat machine k s) := by
  cases high with
  | false => cases machine <;> cases k <;> rfl
  | true =>
    obtain rfl := known rfl
    cases machine <;> cases k <;> rfl

/-- A read that returns. -/
theorem getCsrValue_counter {machine : Bool} {k : Counter} {high : Bool} {s t : Iss isa World}
    {value : Word isa}
    (got : (getCsrValue plat (counterAddr machine k high).addr).run s = (.ok value, t)) :
    value = counterHalf isa high ((refresh plat machine k s).csrs.counter k) ∧
      t = refresh plat machine k s ∧ (high = true → isa = .rv32) := by
  have read := getCsrValue_named (named_counterAddr machine k high) got
  have known : high = true → isa = .rv32 := by
    rintro rfl
    cases isa with
    | rv32 => rfl
    | rv64 =>
      have refused : Refused (counterAddr machine k true) s :=
        .inl ⟨rfl, by cases machine <;> cases k <;> rfl⟩
      rw [run_getNamedCsr_refused plat refused] at read
      cases read
  rw [run_getNamedCsr_counter plat known] at read
  cases read
  exact ⟨rfl, rfl, known⟩

end Read

/-! ## Agreement -/

/-- `CYCLE` may be read. -/
def CycleReadable (s : Iss isa World) : Prop :=
  (validateCsrCounterReadAccessRights CsrAddr.cycle.addr).run s = (.ok (), s)

/-- `CYCLE` may be read, and is not the number of cycles. -/
def Stale (s : Iss isa World) : Prop :=
  CycleReadable s ∧ s.csrs.cycle ≠ BitVec.ofNat 64 s.cycleCounter

/-- What the shadows show is what the counters show, `TIME` is the time of the CLINT, and no
read changes what a later one shows. -/
structure CountersAgree (plat : Platform World) (clint : World → Clint) (s : Iss isa World) :
    Prop where
  shadow : ∀ k high x u y v,
    (getCsrValue plat (counterAddr false k high).addr).run s = (.ok x, u) →
    (getCsrValue plat (counterAddr true k high).addr).run s = (.ok y, v) → x = y
  time : ∀ high x u, (getCsrValue plat (counterAddr false .time high).addr).run s = (.ok x, u) →
    x = counterHalf isa high (clint s.world).updateAndGetMtime.1
  order : ∀ machine k high machine' k' high' x u y v z w,
    (getCsrValue plat (counterAddr machine k high).addr).run s = (.ok x, u) →
    (getCsrValue plat (counterAddr machine' k' high').addr).run s = (.ok y, v) →
    (getCsrValue plat (counterAddr machine' k' high').addr).run u = (.ok z, w) → z = y

/-- The two halves of `CYCLE` have one access right. -/
theorem validate_cycle {high : Bool} (known : high = true → isa = .rv32) :
    (validateCsrCounterReadAccessRights (counterAddr false .cycle high).addr : IssM isa World Unit) =
      validateCsrCounterReadAccessRights CsrAddr.cycle.addr := by
  cases high with
  | false => rfl
  | true =>
    obtain rfl := known rfl
    rfl

theorem cycleReadable_of_read {plat : Platform World} {high : Bool} {s t : Iss isa World}
    {value : Word isa}
    (got : (getCsrValue plat (counterAddr false .cycle high).addr).run s = (.ok value, t)) :
    CycleReadable s := by
  have known := (getCsrValue_counter plat got).2.2
  unfold getCsrValue at got
  obtain ⟨_, u, validated, -⟩ := Exec.run_bind_eq_ok.mp got
  have same : u = s := Sat.ok (R := Unmoved) inferInstance validated
  rw [same, validate_cycle known] at validated
  exact validated

/-! ## Where they agree -/

section Agreement

variable {plat : Platform World} {clint : World → Clint}

/-- The cycles of a readable `CYCLE` that is not stale. -/
theorem cycle_of_not_stale {s : Iss isa World} (fresh : ¬ Stale s) (readable : CycleReadable s) :
    s.csrs.cycle = BitVec.ofNat 64 s.cycleCounter := by
  by_contra other
  exact fresh ⟨readable, other⟩

/-- A read changes what another one shows only where it brings a stale `CYCLE` up to date. -/
theorem counter_refresh_refresh (clocked : plat.Clocked clint) {machine machine' : Bool}
    {k k' : Counter} {s : Iss isa World}
    (fresh : machine' = false → k' = .cycle → s.csrs.cycle = BitVec.ofNat 64 s.cycleCounter) :
    (refresh plat machine' k' (refresh plat machine k s)).csrs.counter k' =
      (refresh plat machine' k' s).csrs.counter k' := by
  have again : (plat.updateAndGetMtime (plat.updateAndGetMtime s.world).2).1 =
      (plat.updateAndGetMtime s.world).1 := by
    rw [(clocked _).1, (clocked _).2, (clocked _).1, Clint.updateAndGetMtime_twice]
  cases k'
  case time => cases k <;> cases machine <;> first | rfl | exact again
  case instret => cases k <;> cases machine <;> rfl
  case cycle =>
    cases machine' with
    | true => cases k <;> cases machine <;> rfl
    | false =>
      cases k <;> cases machine <;> first | rfl | exact (fresh rfl rfl).symm

theorem countersAgree_of_fresh (clocked : plat.Clocked clint) {s : Iss isa World}
    (fresh : ¬ Stale s) : CountersAgree plat clint s where
  shadow k high x u y v shadow machine := by
    obtain ⟨rfl, -⟩ := getCsrValue_counter plat shadow
    obtain ⟨rfl, -⟩ := getCsrValue_counter plat machine
    cases k with
    | time => rfl
    | instret => rfl
    | cycle =>
      have same := cycle_of_not_stale fresh (cycleReadable_of_read shadow)
      exact congrArg (counterHalf isa high) same
  time high x u got := by
    obtain ⟨rfl, -⟩ := getCsrValue_counter plat got
    rw [← (clocked s.world).1]
    rfl
  order machine k high machine' k' high' x u y v z w first second later := by
    obtain ⟨-, rfl, -⟩ := getCsrValue_counter plat first
    obtain ⟨rfl, -⟩ := getCsrValue_counter plat second
    obtain ⟨rfl, -⟩ := getCsrValue_counter plat later
    refine congrArg (counterHalf isa high') (counter_refresh_refresh clocked ?_)
    rintro rfl rfl
    exact cycle_of_not_stale fresh (cycleReadable_of_read second)

/-- A value of 64 bits is known by its halves. -/
theorem eq_of_halves {x y : BitVec 64}
    (halves : ∀ high, (high = true → isa = .rv32) → counterHalf isa high x = counterHalf isa high y) :
    x = y := by
  have low := halves false nofun
  cases isa with
  | rv64 => exact low
  | rv32 =>
    have high := halves true fun _ => rfl
    apply BitVec.eq_of_getLsbD_eq
    intro i bound
    by_cases below : i < 32
    · have bit := congrArg (fun z : BitVec 32 => z.getLsbD i) low
      simpa [counterHalf, below] using bit
    · have bit := congrArg (fun z : BitVec 32 => z.getLsbD (i - 32)) high
      have inside : i - 32 < 32 := by omega
      have whole : 32 + (i - 32) = i := by omega
      simpa [counterHalf, inside, whole] using bit

/-- A stale `CYCLE` is not `MCYCLE`. -/
theorem not_stale_of_agree {s : Iss isa World} (agree : CountersAgree plat clint s) : ¬ Stale s := by
  rintro ⟨readable, other⟩
  apply other
  apply @eq_of_halves isa
  intro high known
  have shadow : (getCsrValue plat (counterAddr false .cycle high).addr).run s =
      (.ok (counterHalf isa high s.csrs.cycle), s) := by
    unfold getCsrValue
    rw [named_counterAddr, validate_cycle known, Exec.run_bind_ok readable]
    exact run_getNamedCsr_counter plat known s
  have validated : (validateCsrCounterReadAccessRights (counterAddr true .cycle high).addr).run s =
      (.ok (), s) := by
    have free : isCounterAddr isa (counterAddr true .cycle high).addr = false := by
      cases isa <;> cases high <;> decide
    unfold validateCsrCounterReadAccessRights
    rw [free]
    rfl
  have machine : (getCsrValue plat (counterAddr true .cycle high).addr).run s =
      (.ok (counterHalf isa high (BitVec.ofNat 64 s.cycleCounter)), refresh plat true .cycle s) := by
    unfold getCsrValue
    rw [named_counterAddr, Exec.run_bind_ok validated]
    exact run_getNamedCsr_counter plat known s
  exact agree.shadow .cycle high _ _ _ _ shadow machine

end Agreement

/-! ## Runs that count no cycle -/

/-- The cycles are not counted, and `CYCLE` has their number. -/
def CycleAtRest (s : Iss isa World) : Prop :=
  Mcountinhibit.CY.get (s.csrs.reg .mcountinhibit) = 1#1 ∧
    s.csrs.cycle = BitVec.ofNat 64 s.cycleCounter

/-- ... and both stay so. -/
def Resting (s : Iss isa World) (_ : Option Exc) (t : Iss isa World) : Prop :=
  CycleAtRest s → CycleAtRest t

instance : Closed (@Resting isa World) where
  refl _ := id
  trans first second := fun rest => second (first rest)

theorem resting_of_same {s t : Iss isa World} {o : Option Exc}
    (inhibit : t.csrs.reg .mcountinhibit = s.csrs.reg .mcountinhibit)
    (cycle : t.csrs.cycle = s.csrs.cycle) (counter : t.cycleCounter = s.cycleCounter) :
    Resting s o t := by
  rintro ⟨inhibited, fresh⟩
  refine ⟨?_, ?_⟩
  · rwa [inhibit]
  · rwa [cycle, counter]

instance : Checks (@Resting isa World) where
  trap _ _ _ _ := id
  rethrow _ _ _ _ step := step
  abort _ _ _ := id
  scratch _ _ _ _ := resting_of_same rfl rfl rfl
  issue _ _ _ := resting_of_same rfl rfl rfl
  move _ _ := resting_of_same rfl rfl rfl
  cycle := ⟨fun _ rest => ⟨rest.1, rfl⟩⟩

instance : Indifferent (@Resting isa World) where
  refused _ _ _ _ := resting_of_same rfl rfl rfl
  world _ _ := resting_of_same rfl rfl rfl
  stuck _ _ _ _ := resting_of_same rfl rfl rfl
  counter _ k _ other := by
    cases k
    case cycle => exact absurd rfl other
    all_goals exact resting_of_same rfl rfl rfl
  reservation _ _ _ := resting_of_same rfl rfl rfl
  mode _ _ _ := resting_of_same rfl rfl rfl
  csr s c value own := by
    refine resting_of_same (setCsr_reg_of_ne s ?_ value) rfl rfl
    rintro rfl
    cases own
  status s value _ := resting_of_same (setCsr_reg_of_ne s (by decide) value) rfl rfl

instance : Writes (@Resting isa World) where
  reg _ _ _ := resting_of_same rfl rfl rfl
  exit _ := resting_of_same rfl rfl rfl

instance : FpWrites (@Resting isa World) where
  reg _ _ _ := resting_of_same rfl rfl rfl
  flags _ _ := resting_of_same rfl rfl rfl
  dirty := ⟨fun _ => resting_of_same rfl rfl rfl⟩
  accrue _ := .update fun s => resting_of_same (setCsr_reg_of_ne s (by decide) _) rfl rfl

/-- The addresses through which the cycles, or whether they are counted, can be written. -/
def writesCycle : List (BitVec 12) :=
  [CsrAddr.mcountinhibit.addr, CsrAddr.cycle.addr, CsrAddr.cycleh.addr, CsrAddr.mcycle.addr,
    CsrAddr.mcycleh.addr]

theorem cell_of_other {a : CsrAddr} (other : a.addr ∉ writesCycle) :
    a.cell isa ≠ some (.reg .mcountinhibit) ∧ a.cell isa ≠ some (.counter .cycle) ∧
      a.cell isa ≠ some (.counterHigh .cycle) := by
  cases a
  case mcountinhibit | cycle | cycleh | mcycle | mcycleh => exact absurd (by decide) other
  case pmpcfg i =>
    clear other
    revert i
    cases isa <;> decide
  all_goals cases isa <;> exact ⟨nofun, nofun, nofun⟩

theorem resting_setCsrValue {addr : BitVec 12} (other : addr ∉ writesCycle) (value : Word isa) :
    Sat Resting (setCsrValue addr value : IssM isa World Unit) where
  holds s := by
    rcases setCsrValue_cases addr value with illegal | ⟨a, rfl, write⟩
    · rw [illegal]
      exact id
    have step := (written_setNamedCsr a value).holds s
    have cells := @cell_of_other isa a other
    rw [write]
    refine resting_of_same ?_ (step.counter .cycle cells.2.1 cells.2.2) ?_
    · apply BitVec.eq_of_getLsbD_eq
      intro i _
      exact step.kept .mcountinhibit i fun both => cells.1 both.1
    · rw [step.rest]

/-- The instruction at the program counter does not write them. -/
def LeavesCycle (plat : Platform World) (s : Iss isa World) : Prop :=
  ∀ op instr, nextInstr plat s = some (op, instr) → op.isCsr = true → CsrWrites instr op →
    instr.csr.setWidth 12 ∉ writesCycle

/-- Nothing is counted while the inhibit bit is set. -/
theorem resting_performance (plat : Platform World) :
    Sat Resting (performanceAndSyncUpdate plat : IssM isa World Unit) := by
  have instret : ∀ value, Sat Resting (setCounter .instret value : IssM isa World Unit) :=
    Modes.instret plat
  have counter : ∀ n, Sat Resting (setLrScCounter n : IssM isa World Unit) := Locks.counter plat
  unfold performanceAndSyncUpdate
  refine .bind inferInstance fun _ => .bind inferInstance fun _ => .bind inferInstance fun _ =>
    .bind inferInstance fun _ => ⟨fun t rest => ?_⟩
  have inhibited : ¬ Mcountinhibit.CY.get (t.csrs.reg .mcountinhibit) = 0#1 := by
    rw [rest.1]
    decide
  rw [run_readField_bind, if_neg inhibited]
  exact rest

theorem resting_runStep {plat : Platform World} {s : Iss isa World}
    (leaves : LeavesCycle plat (beforeExec plat s)) : SatAt Resting (runStep plat) s := by
  refine (stepParts_of_modes plat Resting (resting_performance plat) id).runStep ?_
  refine satAt_execStep inferInstance fun u _ prepared => satAt_exec plat Resting (fun csr => ?_)
    fun float => .of_sat (sat_exec_float _ plat float)
  refine satAt_exec_csr Resting (fun _ writes _ => ?_) csr
  exact .of_sat (resting_setCsrValue (leaves _ _ (nextInstr_of_decoded prepared) csr writes) _)

/-- In every state the counters agree exactly when `CYCLE` is not stale; and where it is up to
date and cycles are not counted, they agree in every state of a run that leaves both so. -/
theorem counters_agree_iff {plat : Platform World} {clint : World → Clint}
    (clocked : plat.Clocked clint) (s : Iss isa World) :
    (CountersAgree plat clint s ↔ ¬ Stale s) ∧ (CycleAtRest s → ∀ t,
      Run plat (fun u => LeavesCycle plat (beforeExec plat u)) s t → CountersAgree plat clint t) := by
  refine ⟨⟨not_stale_of_agree, countersAgree_of_fresh clocked⟩, fun rest t run => ?_⟩
  have kept : CycleAtRest t :=
    run.invariant (fun rest leaves ran => (resting_runStep leaves).ok ran rest)
      (fun _ _ _ _ rest => rest) rest
  exact countersAgree_of_fresh clocked fun stale => stale.2 kept.2

theorem flat_clocked : Flat.platform.Clocked fun _ => ⟨0, 0⟩ := fun _ => ⟨rfl, rfl⟩

/-- Out of reset no cycle was counted. -/
theorem counters_agree_at_reset : CountersAgree Flat.platform (fun _ => ⟨0, 0⟩) (everywhere 0x13) :=
  (counters_agree_iff flat_clocked (everywhere 0x13)).1.mpr fun stale => stale.2 rfl

/-- After one instruction `MCYCLE` is 1 and `CYCLE` is still 0. -/
theorem cycle_is_stale : ¬ ∀ s : Iss .rv64 Flat, Reachable Flat.platform s →
    CountersAgree Flat.platform (fun _ => ⟨0, 0⟩) s := by
  intro agree
  have reached : Reachable Flat.platform ((runStep Flat.platform).run (everywhere 0x13)).2 :=
    ⟨0, false, 0, 0, _, false, Run.start.next trivial (by decide)⟩
  have same := (agree _ reached).shadow .cycle false 0 _ 1 _ (Prod.ext (by decide) rfl)
    (Prod.ext (by decide) rfl)
  exact absurd same (by decide)

end Iss

end RiscvVp
