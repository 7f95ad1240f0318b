/-
# RiscvVp.Iss.Reservation -- how long a core keeps the bus

`LR` takes the bus lock and leaves it taken.  The lock is given back by the next store,
by `SC`, by `WFI` and by a trap or an interrupt; and `lr_sc_counter` sees to it that it is
given back in any case, after `LR` and 16 more instructions.
-/
import RiscvVp.Iss.Atomic
import RiscvVp.Iss.Board
import RiscvVp.Iss.CsrStorage

namespace RiscvVp

set_option autoImplicit false

open Lib Transition

namespace Mapping

def isLr : Mapping → Bool
  | .lrW | .lrD => true
  | _ => false

/-- The instructions that end with a store. -/
def isStore : Mapping → Bool
  | .sb | .sh | .sw | .sd | .fsw | .fsd => true
  | op => op.isAmo

end Mapping

namespace Iss

variable {isa : Isa}

/-! ## The number of the core -/

section Hart

variable {World : Type}

def SameHart (s : Iss isa World) (_ : Option Exc) (t : Iss isa World) : Prop := t.hartId = s.hartId

theorem hartId_setCsr (s : Iss isa World) {c : Csr} (other : c ≠ .mhartid) (value : Word isa) :
    (s.setCsr c value).hartId = s.hartId := by
  unfold hartId
  rw [setCsr_reg_of_ne s other.symm]

instance : Closed (@SameHart isa World) where
  refl _ := rfl
  trans first second := Eq.trans second first

instance : Indifferent (@SameHart isa World) where
  trap _ _ _ _ := rfl
  rethrow _ _ _ _ step := step
  abort _ _ _ := rfl
  scratch _ _ _ _ := rfl
  move _ _ := rfl
  cycle := ⟨fun _ => rfl⟩
  world _ _ := rfl
  stuck _ _ _ _ := rfl
  counter _ k _ _ := by cases k <;> rfl
  reservation _ _ _ := rfl
  mode _ _ _ := rfl
  csr s c value own := hartId_setCsr s (by rintro rfl; cases own) value
  status s value _ := hartId_setCsr s (by decide) value
  refused _ _ _ _ := rfl

instance : Checks (@SameHart isa World) where
  issue _ _ _ := rfl

instance : Writes (@SameHart isa World) where
  reg _ _ _ := rfl
  exit _ := rfl

instance : FpWrites (@SameHart isa World) where
  reg _ _ _ := rfl
  flags _ _ := rfl
  dirty := ⟨fun _ => rfl⟩
  accrue _ := .update fun s => hartId_setCsr s (by decide) _

theorem cell_mhartid {a : CsrAddr} (own : a.cell isa = some (.reg .mhartid)) : a = .mhartid := by
  rcases CsrAddr.register_of_cell own with same | ⟨-, past⟩
  · cases a <;> first | rfl | cases same
  · unfold CsrAddr.overrun at past
    split at past <;> cases past

/-- What can be written is not `mhartid`. -/
theorem setCsrValue_hartId {addr : BitVec 12} (writable : csrReadonly addr = false) {value : Word isa}
    {s : Iss isa World} : ((setCsrValue addr value).run s).2.hartId = s.hartId := by
  rcases setCsrValue_cases addr value with illegal | ⟨a, rfl, write⟩
  · rw [illegal]
    rfl
  rw [write]
  have kept : ((setNamedCsr value a).run s).2.csrs.reg .mhartid = s.csrs.reg .mhartid :=
    BitVec.eq_of_getLsbD_eq fun i _ => ((written_setNamedCsr a value).holds s).kept .mhartid i
      fun both => by
        cases cell_mhartid both.1
        cases writable
  unfold hartId
  rw [kept]

theorem sameHart_exec {instr : Instruction} {plat : Platform World} {op : Mapping}
    {s : Iss isa World} : SatAt SameHart (exec instr plat op) s :=
  satAt_exec plat SameHart
    (satAt_exec_csr SameHart fun _ _ writable => setCsrValue_hartId writable)
    fun float => .of_sat (sat_exec_float instr plat float)

theorem sameHart_execAndInterrupt (plat : Platform World) (s : Iss isa World) :
    SatAt SameHart (execAndInterrupt plat) s :=
  satAt_execAndInterrupt plat SameHart (satAt_execStep inferInstance fun _ _ _ => sameHart_exec)

end Hart

/-! ## Everything but `LR` -/

open SharedBus Board

section Flow

variable {Dev : Type} (me : BitVec 64)

/-- The core has the bus. -/
def HasBus (s : Iss isa (Shared Dev)) : Prop := s.world.bus.Held me

/-- The reservation is left alone; and the core has the bus after only if it had it before, has
made nothing but loads and has as many steps left. -/
structure Flowed (s : Iss isa (Shared Dev)) (o : Option Exc) (t : Iss isa (Shared Dev)) : Prop where
  hart : t.hartId = me
  lrAddr : t.lrAddr = s.lrAddr
  counter : t.lrScCounter = s.lrScCounter ∨ t.lrScCounter = 0
  keeps : o = none → Keeps me s.world.bus t.world.bus
  count : o = none → HasBus me t → t.lrScCounter = s.lrScCounter

/-- That, of the core `me`. -/
def Flow (s : Iss isa (Shared Dev)) (o : Option Exc) (t : Iss isa (Shared Dev)) : Prop :=
  s.hartId = me → Flowed me s o t

variable {me} {s t : Iss isa (Shared Dev)}

/-- Of what does not touch the bus. -/
theorem flow_of_same {o : Option Exc} (hart : t.hartId = s.hartId) (lrAddr : t.lrAddr = s.lrAddr)
    (counter : t.lrScCounter = s.lrScCounter) (world : t.world = s.world) : Flow me s o t := fun own =>
  { hart := hart.trans own
    lrAddr := lrAddr
    counter := .inl counter
    keeps := fun _ => by rw [world]; exact .refl _
    count := fun _ _ => counter }

instance : Closed (@Flow isa Dev me) where
  refl _ := flow_of_same rfl rfl rfl rfl
  trans {s t o u} first second own := by
    have first := first own
    have second := second first.hart
    refine ⟨second.hart, second.lrAddr.trans first.lrAddr, ?_, fun returns => ?_, fun returns held => ?_⟩
    · rcases second.counter with same | zero
      · rw [same]
        exact first.counter
      · exact .inr zero
    · exact (first.keeps rfl).trans (second.keeps returns)
    · exact (second.count returns held).trans (first.count rfl (second.keeps returns held).1)

instance : Inner (@Flow isa Dev me) where
  trap _ _ _ _ := flow_of_same rfl rfl rfl rfl
  rethrow _ _ _ _ step own :=
    ⟨(step own).hart, (step own).lrAddr, (step own).counter, nofun, nofun⟩
  abort _ _ _ := flow_of_same rfl rfl rfl rfl
  scratch _ _ _ _ := flow_of_same rfl rfl rfl rfl
  move _ _ := flow_of_same rfl rfl rfl rfl
  cycle := ⟨fun _ => flow_of_same rfl rfl rfl rfl⟩
  counter _ k _ _ := flow_of_same (by cases k <;> rfl) rfl rfl rfl
  mode _ _ _ := flow_of_same rfl rfl rfl rfl
  csr s c value own := flow_of_same (hartId_setCsr s (by rintro rfl; cases own) value) rfl rfl rfl
  status s value _ := flow_of_same (hartId_setCsr s (by decide) value) rfl rfl rfl

instance : Checks (@Flow isa Dev me) where
  issue _ _ _ := flow_of_same rfl rfl rfl rfl

instance : Over (OnBus (Keeps me)) (@Flow isa Dev me) where
  world _ _ _ keeps own := ⟨own, rfl, .inl rfl, keeps, fun _ _ => rfl⟩

instance : Writes (@Flow isa Dev me) where
  reg _ _ _ := flow_of_same rfl rfl rfl rfl
  exit _ := flow_of_same rfl rfl rfl rfl

instance : FpWrites (@Flow isa Dev me) where
  reg _ _ _ := flow_of_same rfl rfl rfl rfl
  flags _ _ := flow_of_same rfl rfl rfl rfl
  dirty := ⟨fun _ => flow_of_same rfl rfl rfl rfl⟩
  accrue _ := .update fun s => flow_of_same (hartId_setCsr s (by decide) _) rfl rfl rfl

/-! ### Giving the bus back -/

variable (b : Board Dev)

/-- Without the bus, a core may forget the steps it has left. -/
theorem flow_of_free {o : Option Exc} (hart : t.hartId = s.hartId) (lrAddr : t.lrAddr = s.lrAddr)
    (counter : t.lrScCounter = s.lrScCounter ∨ t.lrScCounter = 0) (free : s.hartId = me → ¬ HasBus me t) :
    Flow me s o t := fun own =>
  { hart := hart.trans own
    lrAddr := lrAddr
    counter := counter
    keeps := fun _ => .of_released (free own)
    count := fun _ held => absurd held (free own) }

/-- The core after `release_lr_sc_reservation`. -/
def released (s : Iss isa (Shared Dev)) : Iss isa (Shared Dev) :=
  { s with lrScCounter := 0, world := { s.world with bus := s.world.bus.unlock s.hartId } }

theorem run_release (s : Iss isa (Shared Dev)) :
    (releaseLrScReservation (b.platform me)).run s = (.ok (), released s) := rfl

theorem released_free (own : s.hartId = me) : ¬ HasBus me (released s) := by
  subst own
  exact unlock_released s.world.bus s.hartId

instance : Modes (b.platform me) (@Flow isa Dev me) :=
  modes_of_over (b.platform me) (OnBus (Keeps me)) (Flow me)
    ⟨fun s => by
      rw [run_release]
      exact flow_of_free rfl rfl (.inr rfl) released_free⟩

instance : Stores (b.platform me) (@Flow isa Dev me) (Flow me) :=
  stores_of_lifts (b.platform me) (OnBus (Keeps me)) (Flow me)

/-! ### What gives it back -/

theorem rawStoreData_released {addr : BitVec 64} {n : Nat} {value : BitVec (8 * n)}
    (ran : (rawStoreData (b.platform me) addr n value).run s = (.ok (), t)) : ¬ HasBus me t := by
  cases stored : ((b.platform me).rawStoreData s.hartId addr n value).run s.world with
  | mk result w =>
    have here : (rawStoreData (b.platform me) addr n value).run s = (result, s.withWorld w) :=
      run_onWorld stored
    rw [here] at ran
    cases ran
    rintro ⟨locked, -⟩
    rw [withWorld_world, rawStoreData_frees b me stored] at locked
    cases locked

theorem storeData_released {addr : BitVec 64} {n : Nat} {value : BitVec (8 * n)}
    (ran : (storeData (b.platform me) addr n value).run s = (.ok (), t)) : ¬ HasBus me t := by
  obtain ⟨_, u, -, stored⟩ := Exec.run_bind_eq_ok.mp ran
  exact rawStoreData_released b stored

theorem atomicStoreConditionalData_released {addr : BitVec 64} {n : Nat} {value : BitVec (8 * n)}
    {stored : Bool} (own : s.hartId = me)
    (ran : (atomicStoreConditionalData (b.platform me) addr n value).run s = (.ok stored, t)) :
    ¬ HasBus me t := by
  unfold atomicStoreConditionalData busIsLocked at ran
  rw [Exec.run_read_bind] at ran
  split at ran
  case isTrue locked =>
    rw [Exec.run_read_bind] at ran
    split at ran
    · obtain ⟨_, u, written, rest⟩ := Exec.run_bind_eq_ok.mp ran
      cases rest
      exact storeData_released b written
    · cases ran
      subst own
      exact unlock_released s.world.bus s.hartId
  case isFalse free =>
    cases ran
    rintro ⟨locked, owner⟩
    apply free
    show (s.world.bus.locked && s.world.bus.owner == s.hartId) = true
    rw [locked, owner, own]
    exact beq_self_eq_true me

theorem trapCheckAddrAlignment_ok {n : Nat} {isLoad : Bool} {addr : BitVec 64}
    (checked : (trapCheckAddrAlignment n isLoad addr).run s = (.ok (), t)) : t = s := by
  unfold trapCheckAddrAlignment at checked
  split at checked <;> cases checked
  rfl

theorem execSc_released {instr : Instruction} {n : Nat} (own : s.hartId = me)
    (ran : (execSc instr (b.platform me) n).run s = (.ok (), t)) : ¬ HasBus me t := by
  unfold execSc at ran
  obtain ⟨_, _, read, ran⟩ := Exec.run_bind_eq_ok.mp ran
  cases read
  obtain ⟨_, u, checked, ran⟩ := Exec.run_bind_eq_ok.mp ran
  cases trapCheckAddrAlignment_ok checked
  obtain ⟨_, _, read, ran⟩ := Exec.run_bind_eq_ok.mp ran
  cases read
  obtain ⟨_, _, failed, ran⟩ := Exec.run_bind_eq_ok.mp ran
  cases failed
  obtain ⟨stored, v, tried, ran⟩ := Exec.run_bind_eq_ok.mp ran
  have free := atomicStoreConditionalData_released b (s := s.setReg _ 1) own tried
  obtain ⟨_, _, answered, ran⟩ := Exec.run_bind_eq_ok.mp ran
  cases answered
  cases ran
  exact free

theorem executeAmo_released {instr : Instruction} {n : Nat}
    {f : BitVec (8 * n) → BitVec (8 * n) → BitVec (8 * n)}
    (ran : (executeAmo instr (b.platform me) n f).run s = (.ok (), t)) : ¬ HasBus me t := by
  unfold executeAmo at ran
  obtain ⟨_, _, -, ran⟩ := Exec.run_bind_eq_ok.mp ran
  obtain ⟨_, _, -, ran⟩ := Exec.run_bind_eq_ok.mp ran
  obtain ⟨_, _, -, ran⟩ := Exec.run_bind_eq_ok.mp ran
  obtain ⟨_, _, -, ran⟩ := Exec.run_bind_eq_ok.mp ran
  obtain ⟨_, u, stored, ran⟩ := Exec.run_bind_eq_ok.mp ran
  cases ran
  unfold atomicStoreData at stored
  obtain ⟨_, _, -, stored⟩ := Exec.run_bind_eq_ok.mp stored
  obtain ⟨_, _, -, stored⟩ := Exec.run_bind_eq_ok.mp stored
  have free : ¬ HasBus me u := storeData_released b stored
  exact free

/-! ### Instructions of the A extension -/

/-- Only the bus is touched. -/
def Drift (me : BitVec 64) (s : Iss isa (Shared Dev)) (_ : Option Exc) (t : Iss isa (Shared Dev)) :
    Prop :=
  s.hartId = me → t.hartId = me ∧ t.lrAddr = s.lrAddr ∧
    (t.lrScCounter = s.lrScCounter ∨ t.lrScCounter = 0)

instance : Closed (@Drift isa Dev me) where
  refl _ own := ⟨own, rfl, .inl rfl⟩
  trans first second own := by
    obtain ⟨own', addr, counter⟩ := first own
    obtain ⟨own'', addr', counter'⟩ := second own'
    refine ⟨own'', addr'.trans addr, ?_⟩
    rcases counter' with same | zero
    · rw [same]
      exact counter
    · exact .inr zero

theorem drift_of_flow {α : Type} {m : IssM isa (Shared Dev) α} (flow : Sat (Flow me) m) :
    Sat (Drift me) m := flow.mono fun step own => ⟨(step own).hart, (step own).lrAddr, (step own).counter⟩

theorem drift_executeAmo (instr : Instruction) (n : Nat)
    (f : BitVec (8 * n) → BitVec (8 * n) → BitVec (8 * n)) :
    Sat (@Drift isa Dev me) (executeAmo instr (b.platform me) n f) := by
  have lock : Sat (@Drift isa Dev me) (busLock (b.platform me)) := by
    refine ⟨fun s own => ?_⟩
    cases answer : (Platform.await ((b.platform me).lock s.hartId)).run s.world with
    | mk result w =>
      have here : (busLock (b.platform me)).run s = (result, s.withWorld w) := run_onWorld answer
      rw [here]
      exact ⟨own, rfl, .inl rfl⟩
  have load : ∀ addr : Word isa, Sat (@Drift isa Dev me)
      ((atomicLoadData (b.platform me) (dataAddr addr) n).tryCatch amoFault) := by
    have loaded : ∀ addr : Word isa, Sat (@Drift isa Dev me) (loadData (b.platform me) (dataAddr addr) n) :=
      fun addr => drift_of_flow inferInstance
    refine fun addr => ⟨fun s => SatAt.tryCatch (.of_sat (.bind lock fun _ => loaded addr))
      fun e t thrown => ?_⟩
    cases e with
    | abort _ => exact thrown
    | blocked => exact thrown
    | trap e =>
      obtain ⟨reason, -, renamed⟩ := @amoFault_trap isa (Shared Dev) (BitVec (8 * n)) e
      rw [renamed]
      exact thrown
  have stored : ∀ (addr : Word isa) value, Sat (@Drift isa Dev me)
      (atomicStoreData (b.platform me) (dataAddr addr) n value) :=
    fun addr value => drift_of_flow (.of_atomic (inferInstance : Sat (Atomic (Flow me) (Flow me) IsTrap) _))
  unfold executeAmo
  refine .bind inferInstance fun addr => .bind (drift_of_flow inferInstance) fun _ => ?_
  refine .bind (load addr) fun data => .bind inferInstance fun source => ?_
  exact .bind (stored addr _) fun _ => drift_of_flow inferInstance

theorem drift_execSc (instr : Instruction) (n : Nat) :
    Sat (@Drift isa Dev me) (execSc instr (b.platform me) n) := by
  have conditional : ∀ (addr : Word isa) value, Sat (@Flow isa Dev me)
      (atomicStoreConditionalData (b.platform me) (dataAddr addr) n value) := by
    intro addr value
    have stores : Sat (@Flow isa Dev me) (storeData (b.platform me) (dataAddr addr) n value) :=
      .of_atomic (inferInstance : Sat (Atomic (Flow me) (Flow me) IsTrap) _)
    have unlocks := sat_atomicUnlock (b.platform me) (OnBus (Keeps me)) (@Flow isa Dev me)
    unfold atomicStoreConditionalData
    refine .bind inferInstance fun _ => .ite (fun _ => ?_) fun _ => inferInstance
    exact .bind inferInstance fun _ => .ite (fun _ => inferInstance) fun _ => inferInstance
  have zero : Sat (@Drift isa Dev me) (setLrScCounter 0) := .update fun _ own => ⟨own, rfl, .inr rfl⟩
  have write : ∀ rd (value : Word isa), Sat (@Drift isa Dev me) (writeReg rd value) :=
    fun _ _ => drift_of_flow inferInstance
  unfold execSc
  refine .bind inferInstance fun addr => .bind (drift_of_flow inferInstance) fun _ => ?_
  refine .bind inferInstance fun value => .bind (write _ _) fun _ => ?_
  exact .bind (drift_of_flow (conditional _ _)) fun _ => .bind (write _ _) fun _ => zero

/-- What has given the bus back when it returns. -/
theorem flow_of_released {m : IssM isa (Shared Dev) Unit} (drift : Sat (Drift me) m)
    (released : ∀ {s t}, s.hartId = me → m.run s = (.ok (), t) → ¬ HasBus me t) : Sat (Flow me) m where
  holds s own := by
    obtain ⟨hart, lrAddr, counter⟩ := drift.holds s own
    cases ran : m.run s with
    | mk result t =>
      rw [ran] at hart lrAddr counter
      cases result with
      | error e => exact ⟨hart, lrAddr, counter, nofun, nofun⟩
      | ok _ =>
        have free := released own ran
        exact ⟨hart, lrAddr, counter, fun _ => .of_released free, fun _ held => absurd held free⟩

theorem flow_executeAmo (instr : Instruction) (n : Nat)
    (f : BitVec (8 * n) → BitVec (8 * n) → BitVec (8 * n)) :
    Sat (@Flow isa Dev me) (executeAmo instr (b.platform me) n f) :=
  flow_of_released (drift_executeAmo b instr n f) fun _ ran => executeAmo_released b ran

theorem flow_execSc (instr : Instruction) (n : Nat) :
    Sat (@Flow isa Dev me) (execSc instr (b.platform me) n) :=
  flow_of_released (drift_execSc b instr n) fun own ran => execSc_released b own ran

theorem flow_setCsrValue {addr : BitVec 12} (writable : csrReadonly addr = false) {value : Word isa} :
    SatAt (Flow me) (setCsrValue addr value) s := by
  have hart : ((setCsrValue addr value).run s).2.hartId = s.hartId := setCsrValue_hartId writable
  unfold SatAt
  rcases run_setCsrValue addr value s with illegal | ⟨csrs, written⟩
  · rw [illegal]
    exact flow_of_same rfl rfl rfl rfl
  · rw [written] at hart ⊢
    exact flow_of_same hart rfl rfl rfl

/-- Every instruction but `LR`. -/
theorem flow_exec {instr : Instruction} {op : Mapping} (other : op.isLr = false) :
    SatAt (Flow me) (exec instr (b.platform me) op) s := by
  refine satAt_exec_core (b.platform me) (Flow me) (fun csr => ?_)
    (fun float => .of_sat (sat_exec_float instr _ float)) fun atomic => .of_sat ?_
  · refine satAt_exec_csr (Flow me) (fun _ _ writable => flow_setCsrValue writable) csr
  · have word := @flow_executeAmo isa Dev me b instr 4
    have wide := @flow_executeAmo isa Dev me b instr 8
    have scW := @flow_execSc isa Dev me b instr 4
    have scD := @flow_execSc isa Dev me b instr 8
    cases op
    case scW => exact .bind inferInstance fun _ => scW
    case scD =>
      unfold exec
      infer_instance
    case amoswapW | amoaddW | amoxorW | amoandW | amoorW | amominW | amominuW | amomaxW | amomaxuW =>
      exact .bind inferInstance fun _ => word _
    case amoswapD | amoaddD | amoxorD | amoandD | amoorD | amominD | amominuD | amomaxD | amomaxuD =>
      have both := wide
      unfold exec executeAmoD
      infer_instance
    all_goals first | cases other; done | cases atomic

/-! ## `LR` -/

/-- What an `LR` to `addr` that returns has done. -/
structure Reserved (me addr : BitVec 64) (s t : Iss isa (Shared Dev)) : Prop where
  hart : t.hartId = me
  lrAddr : t.lrAddr = addr
  counter : t.lrScCounter = s.lrScCounter ∧ s.lrScCounter ≠ 0 ∨ t.lrScCounter = 17
  count : HasBus me t → s.lrScCounter ≠ 0 → t.lrScCounter = s.lrScCounter
  /-- If the bus is still taken then nobody but the core has used it since. -/
  since : HasBus me t → ∃ before after, t.world.bus.log =
    s.world.bus.log ++ before ++ .acquired me :: after ∧ ∀ e ∈ after, isLoad e = true

theorem busLock_ok (own : s.hartId = me) (ran : (busLock (b.platform me)).run s = (.ok (), t)) :
    ∃ bus, s.world.bus.await me = some bus ∧
      t = s.withWorld { s.world with bus := bus.acquire me } := by
  unfold busLock at ran
  rw [Exec.run_read_bind, own] at ran
  cases answer : s.world.bus.await me with
  | none =>
    have none : (b.platform me).lock me s.world = none := by
      simp only [Board.platform, answer, Option.map_none]
    rw [run_onWorld (Platform.run_await_none none)] at ran
    cases ran
  | some bus =>
    have some : (b.platform me).lock me s.world = some { s.world with bus := bus.acquire me } := by
      simp only [Board.platform, answer, Option.map_some]
    rw [run_onWorld (Platform.run_await_some some)] at ran
    cases ran
    exact ⟨bus, rfl, rfl⟩

theorem await_log {w w' : SharedBus} (waited : w.await me = some w') : ∃ l, w'.log = w.log ++ l := by
  unfold SharedBus.await at waited
  split at waited
  · obtain ⟨l, log, -⟩ := waitUntilUnlocked_othersOnly me waited
    exact ⟨l, log⟩
  · cases waited
    exact ⟨[], (List.append_nil _).symm⟩

theorem execLr_reserved {instr : Instruction} {n : Nat} (own : s.hartId = me)
    (ran : (execLr instr (b.platform me) n).run s = (.ok (), t)) :
    Reserved me (dataAddr (s.regs (regIndex instr.rs1))) s t := by
  unfold execLr at ran
  obtain ⟨base, _, read, ran⟩ := Exec.run_bind_eq_ok.mp ran
  cases read
  obtain ⟨_, u, checked, ran⟩ := Exec.run_bind_eq_ok.mp ran
  cases trapCheckAddrAlignment_ok checked
  obtain ⟨data, v, loaded, ran⟩ := Exec.run_bind_eq_ok.mp ran
  obtain ⟨_, w, written, ran⟩ := Exec.run_bind_eq_ok.mp ran
  cases written
  rw [Exec.run_read_bind] at ran
  unfold atomicLoadReservedData at loaded
  obtain ⟨_, x, locked, loaded⟩ := Exec.run_bind_eq_ok.mp loaded
  obtain ⟨bus, awaited, rfl⟩ := busLock_ok b own locked
  obtain ⟨_, y, noted, loaded⟩ := Exec.run_bind_eq_ok.mp loaded
  cases noted
  have flow := (inferInstance : Sat (Flow me)
    (loadData (b.platform me) (dataAddr (s.regs (regIndex instr.rs1))) n)).ok loaded own
  obtain ⟨before, log⟩ := await_log awaited
  have since : HasBus me v → ∃ before after, v.world.bus.log =
      s.world.bus.log ++ before ++ .acquired me :: after ∧ ∀ e ∈ after, isLoad e = true := by
    intro held
    obtain ⟨-, after, log', loads⟩ := flow.keeps rfl held
    refine ⟨before, after, ?_, loads⟩
    rw [log']
    show bus.log ++ [.acquired me] ++ after = _
    rw [log]
    simp
  have counted := flow.counter
  split at ran
  case isTrue zero =>
    cases ran
    refine ⟨flow.hart, flow.lrAddr, .inr rfl, fun held left => ?_, since⟩
    exact absurd ((flow.count rfl held).symm.trans zero) left
  case isFalse left =>
    cases ran
    have same : v.lrScCounter = s.lrScCounter := counted.resolve_right left
    exact ⟨flow.hart, flow.lrAddr, .inl ⟨same, fun zero => left (same.trans zero)⟩, fun _ _ => same, since⟩

theorem exec_reserved {instr : Instruction} {op : Mapping} (reserves : op.isLr = true)
    (own : s.hartId = me) (ran : (exec instr (b.platform me) op).run s = (.ok (), t)) :
    Reserved me (dataAddr (s.regs (regIndex instr.rs1))) s t := by
  cases op
  case lrW =>
    obtain ⟨_, u, required, ran⟩ := Exec.run_bind_eq_ok.mp ran
    rcases run_requireIsa (Misa.A isa) s with present | missing
    · rw [present] at required
      cases required
      exact execLr_reserved b own ran
    · rw [missing] at required
      cases required
  case lrD =>
    cases isa with
    | rv32 => cases ran
    | rv64 => exact execLr_reserved b own ran
  all_goals cases reserves

/-! ## The rest of a step -/

/-- The bus is given back, and no reservation is left. -/
structure Freed (me : BitVec 64) (t : Iss isa (Shared Dev)) : Prop where
  hart : t.hartId = me
  free : ¬ HasBus me t
  counter : t.lrScCounter = 0

theorem switchToTrapHandler_freed {mode : PrivilegeLevel} (known : KnownLevel mode)
    (own : s.hartId = me) (ran : (switchToTrapHandler (b.platform me) mode).run s = (.ok (), t)) :
    Freed me t := by
  rw [switchToTrapHandler_eq, Exec.run_bind_ok (run_release b s)] at ran
  have flow := (sat_enterHandler (b.platform me) (Flow me) known).ok ran own
  refine ⟨flow.hart, fun held => released_free own (flow.keeps rfl held).1, ?_⟩
  rcases flow.counter with same | zero
  · exact same
  · exact zero

theorem takeTrap_freed {e : SimulationTrap} (own : s.hartId = me)
    (ran : (takeTrap (b.platform me) (.trap e)).run s = (.ok (), t)) : Freed me t := by
  obtain ⟨mode, u, prepared, ran⟩ := Exec.run_bind_eq_ok.mp ran
  have flow := (sat_prepareTrap (b.platform me) (Flow me) e).ok prepared own
  exact switchToTrapHandler_freed b (prepareTrap_known e prepared) flow.hart ran

theorem interrupt_freed {mode : PrivilegeLevel} {pending : Word isa} (known : KnownLevel mode)
    (own : s.hartId = me)
    (ran : (do prepareInterrupt mode pending; switchToTrapHandler (b.platform me) mode :
      IssM isa (Shared Dev) Unit).run s = (.ok (), t)) : Freed me t := by
  obtain ⟨_, u, prepared, ran⟩ := Exec.run_bind_eq_ok.mp ran
  have describe := sat_describeTrap (b.platform me) (@Flow isa Dev me)
  have flow := (sat_prepareInterrupt describe known pending).ok prepared own
  exact switchToTrapHandler_freed b known flow.hart ran

/-- `performance_and_sync_update`: one step less, and no bus with the last one. -/
structure Counted (me : BitVec 64) (s t : Iss isa (Shared Dev)) : Prop where
  hart : t.hartId = me
  lrAddr : t.lrAddr = s.lrAddr
  keeps : Keeps me s.world.bus t.world.bus
  none : s.lrScCounter = 0 → t.lrScCounter = 0
  less : s.lrScCounter ≠ 0 → t.lrScCounter = s.lrScCounter - 1
  last : s.lrScCounter = 1 → ¬ HasBus me t

theorem performance_counted (own : s.hartId = me)
    (ran : (performanceAndSyncUpdate (b.platform me)).run s = (.ok (), t)) : Counted me s t := by
  unfold performanceAndSyncUpdate at ran
  rw [run_readField_bind] at ran
  obtain ⟨_, u, counted, ran⟩ := Exec.run_bind_eq_ok.mp ran
  obtain ⟨csrs, rfl, regs⟩ : ∃ csrs, u = { s with csrs := csrs } ∧ csrs.reg = s.csrs.reg := by
    by_cases on : Mcountinhibit.IR.get (s.csrs.reg .mcountinhibit) = 0#1
    · rw [Exec.when_pos on] at counted
      cases counted
      exact ⟨_, rfl, rfl⟩
    · rw [Exec.when_neg on] at counted
      cases counted
      exact ⟨_, rfl, rfl⟩
  rw [Exec.run_read_bind] at ran
  obtain ⟨_, v, ticked, ran⟩ := Exec.run_bind_eq_ok.mp ran
  have hart : ({ s with csrs := csrs } : Iss isa (Shared Dev)).hartId = me := by
    unfold hartId at own ⊢
    rw [regs]
    exact own
  have left : Counted me s v := by
    by_cases zero : s.lrScCounter = 0
    · rw [Exec.when_neg (not_not.mpr zero)] at ticked
      cases ticked
      exact ⟨hart, rfl, .refl _, id, fun nonzero => absurd zero nonzero, fun one => by omega⟩
    · rw [Exec.when_pos zero] at ticked
      obtain ⟨_, w, down, ticked⟩ := Exec.run_bind_eq_ok.mp ticked
      cases down
      split at ticked
      case isTrue last =>
        rw [run_release] at ticked
        cases ticked
        have free := released_free (s := { s with csrs := csrs, lrScCounter := s.lrScCounter - 1 }) hart
        exact ⟨hart, rfl, .of_released free, fun none => absurd none zero, fun _ => last.symm,
          fun _ => free⟩
      case isFalse more =>
        cases ticked
        have more : s.lrScCounter - 1 ≠ 0 := more
        exact ⟨hart, rfl, .refl _, fun none => absurd none zero, fun _ => rfl,
          fun one => absurd (by omega) more⟩
  rw [run_readField_bind] at ran
  split at ran
  · cases ran
    exact ⟨left.hart, left.lrAddr, left.keeps, left.none, left.less, left.last⟩
  · cases ran
    exact left

/-! ## Where a step gets to -/

/-- Until the instruction is executed, the steps that are left do not change. -/
def SameCount (s : Iss isa (Shared Dev)) (_ : Option Exc) (t : Iss isa (Shared Dev)) : Prop :=
  t.lrScCounter = s.lrScCounter

instance : Closed (@SameCount isa Dev) where
  refl _ := rfl
  trans first second := Eq.trans second first

instance : Inner (@SameCount isa Dev) where
  trap _ _ _ _ := rfl
  rethrow _ _ _ _ step := step
  abort _ _ _ := rfl
  scratch _ _ _ _ := rfl
  move _ _ := rfl
  cycle := ⟨fun _ => rfl⟩
  counter _ _ _ _ := rfl
  mode _ _ _ := rfl
  csr _ _ _ _ := rfl
  status _ _ _ := rfl

instance : Checks (@SameCount isa Dev) where
  issue _ _ _ := rfl

instance : Over Answers (@SameCount isa Dev) where
  world _ _ _ _ := rfl

theorem beforeExec_flow : Flow me s none (beforeExec (b.platform me) s) := by
  have polled := sat_pollInterrupts (b.platform me) (@Flow isa Dev me)
  have linked : Sat (@Flow isa Dev me) (Exec.update fun s => { s with lastPc := s.pc }) :=
    .update fun _ => flow_of_same rfl rfl rfl rfl
  exact (Sat.bind polled fun _ => linked).holds s

/-- The instruction is fetched and decoded. -/
structure Prepared (b : Board Dev) (me : BitVec 64) (s u : Iss isa (Shared Dev)) : Prop where
  ran : (do fetch (b.platform me); decode : IssM isa (Shared Dev) Unit).run
    (beforeExec (b.platform me) s) = (.ok (), u)

theorem Prepared.flow {b : Board Dev} {u : Iss isa (Shared Dev)} (prepared : Prepared b me s u) :
    Flow me s none u := by
  have fetched : Sat (@Flow isa Dev me) (do fetch (b.platform me); decode) := inferInstance
  exact Closed.trans (beforeExec_flow b) (fetched.ok prepared.ran)

theorem Prepared.count {b : Board Dev} {u : Iss isa (Shared Dev)} (prepared : Prepared b me s u) :
    u.lrScCounter = s.lrScCounter := by
  have := reads_of_lifts (b.platform me) Answers (@SameCount isa Dev)
  have fetched : Sat (@SameCount isa Dev) (do fetch (b.platform me); decode) := inferInstance
  have same : u.lrScCounter = (beforeExec (b.platform me) s).lrScCounter := fetched.ok prepared.ran
  exact same

theorem Freed.counted (freed : Freed me s) (counted : Counted me s t) : Freed me t where
  hart := counted.hart
  free held := freed.free (counted.keeps held).1
  counter := counted.none freed.counter

/-- The step comes to `switch_to_trap_handler`: for a trap, or for an interrupt that is pending
after the instruction. -/
def EntersHandler (plat : Platform (Shared Dev)) (s : Iss isa (Shared Dev)) : Prop :=
  (∃ e u, (execAndInterrupt plat).run (beforeExec plat s) = (.error (.trap e), u)) ∨
    ∃ u v, (execStep plat).run (beforeExec plat s) = (.ok (), u) ∧
      (pollInterrupts plat).run u = (.ok (), v) ∧ computePendingInterrupts v ≠ none

/-- The zero register and the status are set before the counting. -/
theorem freed_of_caught {status : CoreExecStatus} (caught : Freed me s)
    (counted : (performanceAndSyncUpdate (b.platform me)).run { s.setReg 0 0 with status := status } =
      (.ok (), t)) : Freed me t := by
  have same : Freed me { s.setReg 0 0 with status := status } := ⟨caught.hart, caught.free, caught.counter⟩
  exact same.counted (performance_counted b same.hart counted)

/-- What a step that executes something has done: it has entered a handler, or it has executed
an instruction (from `u` to `x`), looked at the interrupt lines (`y`) and counted. -/
inductive Stepped (b : Board Dev) (me : BitVec 64) (s t : Iss isa (Shared Dev)) : Prop where
  | handler : EntersHandler (b.platform me) s → Freed me t → Stepped b me s t
  | instruction {u x y : Iss isa (Shared Dev)} : ¬ EntersHandler (b.platform me) s →
      Prepared b me s u → (exec u.instr (b.platform me) u.op).run u = (.ok (), x) →
      Flow me x none y → Counted me y t → Stepped b me s t

theorem stepped (own : s.hartId = me) (going : ¬ Stopped s)
    (ran : (runStep (b.platform me)).run s = (.ok (), t)) : Stepped b me s t := by
  rcases runStep_ok ran with ⟨stopped, -⟩ | ⟨-, v, status, tried, counted⟩
  · exact absurd stopped going
  have own' : (beforeExec (b.platform me) s).hartId = me := (beforeExec_flow b own).hart
  rcases try_ok tried with ⟨returned, x, y, executed, polled, rest⟩ | ⟨e, u, thrown, caught⟩
  · have after : SatAt SameHart (execStep (b.platform me)) (beforeExec (b.platform me) s) :=
      satAt_execStep inferInstance fun _ _ _ => sameHart_exec
    have hart : x.hartId = me := (after.ok executed).trans own'
    have looked : Flow me x none y := (sat_pollInterrupts (b.platform me) (Flow me)).ok polled
    rcases rest with ⟨quiet, rfl⟩ | ⟨mode, pending, found, interrupted⟩
    · obtain ⟨u, prepared, instruction⟩ := execStep_ok executed
      have zeroed : Flow me x none { v.setReg 0 0 with status := status } :=
        Closed.trans looked (flow_of_same rfl rfl rfl rfl)
      refine .instruction ?_ ⟨prepared⟩ instruction zeroed
        (performance_counted b (zeroed hart).hart counted)
      rintro (⟨e, w, thrown⟩ | ⟨x', y', executed', polled', pending⟩)
      · rw [returned] at thrown
        cases thrown
      · rw [executed] at executed'
        cases executed'
        rw [polled] at polled'
        cases polled'
        exact pending quiet
    · have known := computePendingInterrupts_known found
      refine .handler (.inr ⟨x, y, executed, polled, ?_⟩)
        (freed_of_caught b (interrupt_freed b known (looked hart).hart interrupted) counted)
      rw [found]
      exact nofun
  · have hart : u.hartId = me := ((sameHart_execAndInterrupt (b.platform me) _).error thrown).trans own'
    exact .handler (.inl ⟨e, u, thrown⟩) (freed_of_caught b (takeTrap_freed b hart caught) counted)

end Flow

/-- A board with memory only. -/
def quietBoard : Board Flat where
  devices := Flat.platform
  isMemory _ := true
  executeSyscall _ _ _ _ _ bytes dev := ((0, false), bytes, dev)

/-- Its core 0 out of reset, with the same two instructions all over the memory. -/
def booted (words : BitVec 64) (agenda : List (List OtherAction)) : Iss .rv32 (Shared Flat) :=
  reset 0 false 0 0 ⟨⟨false, 0, repeating words, [], agenda⟩, ⟨repeating 0, 0, none⟩⟩

end Iss

end RiscvVp
