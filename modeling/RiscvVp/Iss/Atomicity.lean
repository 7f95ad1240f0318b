/-
# RiscvVp.Iss.Atomicity -- what a successful `SC` says about the past

`SC` looks at two things only: whether the core has the bus, and whether the address is
that of the last `LR`.  Along every run of the core among any number of others, a core that
has the bus took it with an `LR` to `lr_addr`, has executed no `LR` since, and since then the
bus has seen nothing but its own loads (`Linked`).  So when `SC` stores, nobody else has
written and the core itself has not stored since the `LR`.
-/
import RiscvVp.Iss.Reservation

namespace RiscvVp

set_option autoImplicit false

open Lib Transition

namespace SharedBus

variable {w : SharedBus} {me hart : BitVec 64}

/-- A store of another core is an action of the others: the memory and the lock are the same
after both, once that core has access. -/
theorem act_store (other : hart ≠ me) (access : w.Open hart) (addr : BitVec 64) {n : Nat} (small : n ≤ 8)
    (value : BitVec (8 * n)) :
    (w.act me (.store hart addr n (value.setWidth 64))).bytes = ((w.write addr n value).unlock hart).bytes ∧
      Board.SameLock ((w.write addr n value).unlock hart)
        (w.act me (.store hart addr n (value.setWidth 64))) := by
  have same : (value.setWidth 64).setWidth (8 * n) = value := by
    rw [BitVec.setWidth_setWidth_of_le value (by omega)]
    exact BitVec.setWidth_eq value
  have acts : w.act me (.store hart addr n (value.setWidth 64)) =
      (w.poke addr n (value.setWidth 64)).unlock hart := if_pos ⟨other, access⟩
  rw [acts]
  unfold poke
  rw [same]
  by_cases held : w.locked ∧ w.owner = hart
  · have own : ∀ l, ({ w with bytes := w.bytes.write addr n value, log := l } : SharedBus).unlock hart =
        { w with bytes := w.bytes.write addr n value, locked := false, log := l ++ [.released hart] } :=
      fun l => if_pos held
    exact ⟨by rw [record, own, write, record, own], by rw [record, own, write, record, own]; exact ⟨rfl, rfl⟩⟩
  · have free : ∀ l, ({ w with bytes := w.bytes.write addr n value, log := l } : SharedBus).unlock hart =
        { w with bytes := w.bytes.write addr n value, log := l } := fun l => if_neg held
    exact ⟨by rw [record, free, write, record, free], by rw [record, free, write, record, free]; exact ⟨rfl, rfl⟩⟩

end SharedBus

namespace Iss

open SharedBus Board

variable {isa : Isa} {Dev : Type} (b : Board Dev) {me : BitVec 64} {s t u x y : Iss isa (Shared Dev)}

/-! ## The last `LR` -/

/-- The step from `s` comes to an `LR`, to `addr`, in `u`. -/
structure AtLr (b : Board Dev) (me addr : BitVec 64) (s u : Iss isa (Shared Dev)) : Prop where
  going : ¬ Stopped s
  prepared : Prepared b me s u
  reserves : u.op.isLr = true
  target : dataAddr (u.regs (regIndex u.instr.rs1)) = addr

/-- From the `LR` in `u`, which the step from `r` comes to, to `s`. -/
structure Since (b : Board Dev) (me addr : BitVec 64) (start r u s : Iss isa (Shared Dev)) : Prop where
  reached : Run (b.platform me) (fun _ => True) start r
  lr : AtLr b me addr r u
  /-- The `LR` returned, and no other one was come to since. -/
  since : ∃ x r', (exec u.instr (b.platform me) u.op).run u = (.ok (), x) ∧
    (runStep (b.platform me)).run r = (.ok (), r') ∧
    Run (b.platform me) (fun q => ∀ other v, ¬ AtLr b me other q v) r' s
  /-- The bus was taken for it, and has seen nothing but loads of the core since. -/
  quiet : ∃ waiting between, s.world.bus.log = u.world.bus.log ++ waiting ++ .acquired me :: between ∧
    ∀ e ∈ between, isLoad e = true

/-- A core that has the bus has it from an `LR` to `lr_addr`. -/
structure Linked (b : Board Dev) (me : BitVec 64) (start s : Iss isa (Shared Dev)) : Prop where
  hart : s.hartId = me
  reached : Run (b.platform me) (fun _ => True) start s
  held : HasBus me s → ∃ r u, Since b me s.lrAddr start r u s

variable {b} {start : Iss isa (Shared Dev)}

/-- The run goes on, and the bus sees at most loads. -/
theorem Since.extend {addr : BitVec 64} {r : Iss isa (Shared Dev)} (since : Since b me addr start r u s)
    (run : ∀ {r'}, Run (b.platform me) (fun q => ∀ other v, ¬ AtLr b me other q v) r' s →
      Run (b.platform me) (fun q => ∀ other v, ¬ AtLr b me other q v) r' t)
    (loads : ∃ l, t.world.bus.log = s.world.bus.log ++ l ∧ ∀ e ∈ l, isLoad e = true) :
    Since b me addr start r u t := by
  obtain ⟨reached, lr, ⟨x, r', executed, stepped, between⟩, ⟨waiting, l, log, own⟩⟩ := since
  obtain ⟨l', log', own'⟩ := loads
  refine ⟨reached, lr, ⟨x, r', executed, stepped, run between⟩, waiting, l ++ l', ?_, fun e among => ?_⟩
  · rw [log', log]
    simp
  · rcases List.mem_append.mp among with among | among
    · exact own e among
    · exact own' e among

theorem Prepared.unique {v : Iss isa (Shared Dev)} (first : Prepared b me s u) (second : Prepared b me s v) :
    u = v := (Prod.mk.inj (first.ran.symm.trans second.ran)).2

/-- A step that is stopped before it executes anything. -/
theorem Linked.stopped (linked : Linked b me start s) (stop : Stopped s)
    (ran : (runStep (b.platform me)).run s = (.ok (), t)) : Linked b me start t := by
  rcases runStep_ok ran with ⟨-, rfl⟩ | ⟨going, -⟩
  · refine ⟨linked.hart, .step linked.reached trivial ran, fun held => ?_⟩
    obtain ⟨r, u, since⟩ := linked.held held
    refine ⟨r, u, since.extend (fun run => .step run ?_ ran) ⟨[], by simp, nofun⟩⟩
    exact fun _ _ lr => lr.going stop
  · exact absurd stop going

theorem Linked.stepped (linked : Linked b me start s) (going : ¬ Stopped s)
    (ran : (runStep (b.platform me)).run s = (.ok (), t)) : Linked b me start t := by
  have reached : Run (b.platform me) (fun _ => True) start t := .step linked.reached trivial ran
  cases Iss.stepped b linked.hart going ran with
  | handler _ freed => exact ⟨freed.hart, reached, fun held => absurd held freed.free⟩
  | @instruction u x y _ prepared executed looked counted =>
    have own : u.hartId = me := (prepared.flow linked.hart).hart
    have looked := looked ((sameHart_exec.ok executed).trans own)
    have rest : Keeps me x.world.bus t.world.bus := (looked.keeps rfl).trans counted.keeps
    have lrAddr : t.lrAddr = x.lrAddr := counted.lrAddr.trans looked.lrAddr
    refine ⟨counted.hart, reached, fun held => ?_⟩
    cases reserves : u.op.isLr with
    | true =>
      have reserved := exec_reserved b reserves own executed
      obtain ⟨had, l, log, loads⟩ := rest held
      obtain ⟨waiting, between, log', loads'⟩ := reserved.since had
      refine ⟨s, u, linked.reached, ⟨going, prepared, reserves, (lrAddr.trans reserved.lrAddr).symm⟩,
        ⟨x, t, executed, ran, .start⟩, waiting, between ++ l, ?_, fun e among => ?_⟩
      · rw [log, log']
        simp
      · rcases List.mem_append.mp among with among | among
        · exact loads' e among
        · exact loads e among
    | false =>
      have flow := Closed.trans prepared.flow ((flow_exec b reserves).ok executed) linked.hart
      obtain ⟨had, loads⟩ := (flow.keeps rfl).trans rest held
      obtain ⟨r, v, since⟩ := linked.held had
      rw [lrAddr, flow.lrAddr]
      refine ⟨r, v, since.extend (fun run => .step run ?_ ran) loads⟩
      -- the instruction of this step is another one
      intro other v lr
      have same := lr.reserves
      rw [← prepared.unique lr.prepared, reserves] at same
      cases same

theorem linked_of_run (own : start.hartId = me) (free : ¬ HasBus me start)
    (run : Run (b.platform me) (fun _ => True) start s) : Linked b me start s := by
  refine run.invariant (fun {s t} linked _ ran => ?_) (fun _ _ _ _ linked => ?_)
    ⟨own, .start, fun held => absurd held free⟩
  · by_cases stop : Stopped s
    · exact linked.stopped stop ran
    · exact linked.stepped stop ran
  · refine ⟨linked.hart, .debug _ _ _ _ linked.reached, fun held => ?_⟩
    obtain ⟨r, u, since⟩ := linked.held held
    exact ⟨r, u, since.extend (fun run => .debug _ _ _ _ run) ⟨[], by simp, nofun⟩⟩

/-! ## The accesses of `SC` -/

/-- While the bus is open to the core `me`, nobody else writes. -/
def Alone (me : BitVec 64) (s : Iss isa (Shared Dev)) (o : Option Exc) (t : Iss isa (Shared Dev)) : Prop :=
  s.hartId = me → t.hartId = me ∧ (o = none → Undisturbed me s.world.bus t.world.bus)

instance : Closed (@Alone isa Dev me) where
  refl _ own := ⟨own, fun _ => .refl _⟩
  trans first second own := by
    obtain ⟨own', before⟩ := first own
    obtain ⟨own'', after⟩ := second own'
    exact ⟨own'', fun returns => (before rfl).trans (after returns)⟩

instance (type : MemoryAccessType) (va : BitVec 64) : Walks (@Alone isa Dev me) type va where
  fault _ own := ⟨own, nofun⟩
  abort _ _ _ own := ⟨own, nofun⟩
  fill _ _ own := ⟨own, fun _ => .refl _⟩

variable (b)

/-- An access of the core itself. -/
theorem alone_onWorld {α : Type} {access : BitVec 64 → Exec (Shared Dev) Exc α}
    (undisturbed : Sat (OnBus (Undisturbed me)) (access me)) :
    Sat (@Alone isa Dev me) (do onWorld (access (← Exec.read hartId))) where
  holds s own := by
    have step := undisturbed.holds s.world
    cases ran : (access me).run s.world with
    | mk result w =>
      rw [ran] at step
      have here : (do onWorld (access (← Exec.read hartId)) : IssM isa (Shared Dev) α).run s =
          (result, s.withWorld w) := by
        rw [Exec.run_read_bind, own]
        exact run_onWorld ran
      rw [here]
      exact ⟨own, step⟩

instance (addr : BitVec 64) (n : Nat) : Sat (@Alone isa Dev me) (rawLoadData (b.platform me) addr n) :=
  alone_onWorld (undisturbed_rawLoadData b me addr n)

instance (addr : BitVec 64) (n : Nat) (value : BitVec (8 * n)) :
    Sat (@Alone isa Dev me) (rawStoreData (b.platform me) addr n value) :=
  alone_onWorld (undisturbed_rawStoreData b me addr n value)

theorem alone_v2p (addr : BitVec 64) (type : MemoryAccessType) :
    Sat (@Alone isa Dev me) (v2p (b.platform me) addr type) := by
  have translated : Sat (@Alone isa Dev me) (translateVirtualToPhysicalAddr (b.platform me) addr type) :=
    sat_translate (b.platform me) (Alone me) fun vm => sat_walkLevels (b.platform me) (Alone me) vm
  unfold v2p
  infer_instance

/-! ## `SC` -/

/-- The bytes that an `SC` stores. -/
def scBytes : Mapping → Nat
  | .scD => 8
  | _ => 4

/-- The step from `s` comes to an `SC`, to `addr`, in `u`, and the conditional store returns `true`
in `w`. -/
structure ScStores (b : Board Dev) (me addr : BitVec 64) (s u w : Iss isa (Shared Dev)) : Prop where
  going : ¬ Stopped s
  prepared : Prepared b me s u
  conditional : u.op.isSc = true
  target : dataAddr (u.regs (regIndex u.instr.rs1)) = addr
  stored : (atomicStoreConditionalData (b.platform me) addr (scBytes u.op)
    ((u.regs (regIndex u.instr.rs2)).setWidth _)).run (u.setReg (regIndex u.instr.rd) 1) = (.ok true, w)

/-- The store of an `SC` in `u`, after its address is translated: nobody else writes. -/
structure StoresAlone (b : Board Dev) (me addr : BitVec 64) (u w : Iss isa (Shared Dev)) : Prop where
  accesses : ∃ physical v, (v2p (b.platform me) addr .store).run (u.setReg (regIndex u.instr.rd) 1) =
      (.ok physical, v) ∧
    (rawStoreData (b.platform me) physical (scBytes u.op) ((u.regs (regIndex u.instr.rs2)).setWidth _)).run v =
      (.ok (), w) ∧
    ∃ walk store, v.world.bus.log = u.world.bus.log ++ walk ∧ w.world.bus.log = v.world.bus.log ++ store ∧
      (∀ e ∈ walk, ∀ a, e ≠ .foreign a) ∧ ∀ e ∈ store, ∀ a, e ≠ .foreign a

variable {b} {w : Iss isa (Shared Dev)} {addr : BitVec 64}

/-- The core has the bus and the address is the reserved one, or nothing is stored. -/
theorem ScStores.reserved (sc : ScStores b me addr s u w) (own : u.hartId = me) :
    HasBus me u ∧ u.lrAddr = addr ∧
      (storeData (b.platform me) addr (scBytes u.op) ((u.regs (regIndex u.instr.rs2)).setWidth _)).run
        (u.setReg (regIndex u.instr.rd) 1) = (.ok (), w) := by
  have ran := sc.stored
  unfold atomicStoreConditionalData busIsLocked at ran
  rw [Exec.run_read_bind] at ran
  split at ran
  case isFalse => cases ran
  case isTrue locked =>
    have locked : (u.world.bus.locked && u.world.bus.owner == u.hartId) = true := locked
    rw [Bool.and_eq_true, beq_iff_eq, own] at locked
    rw [Exec.run_read_bind] at ran
    split at ran
    case isFalse => cases ran
    case isTrue same =>
      obtain ⟨_, x, written, rest⟩ := Exec.run_bind_eq_ok.mp ran
      cases rest
      exact ⟨locked, same.symm, written⟩

theorem ScStores.alone (sc : ScStores b me addr s u w) (own : u.hartId = me) : StoresAlone b me addr u w := by
  obtain ⟨held, -, stored⟩ := sc.reserved own
  obtain ⟨physical, v, translated, written⟩ := Exec.run_bind_eq_ok.mp stored
  have access : u.world.bus.Open me := fun _ => held.2
  obtain ⟨own', walked⟩ := (alone_v2p b addr .store).ok translated own
  obtain ⟨access', walk, log, others⟩ := walked rfl access
  obtain ⟨-, stores⟩ := (inferInstance : Sat (Alone me) _).ok written own'
  obtain ⟨-, store, log', others'⟩ := stores rfl access'
  exact ⟨physical, v, translated, written, walk, store, log, log', others, others'⟩

/-- Whenever an `SC` stores, in any run of the core from reset among any others: the core has
executed an `LR` to the same address and none since; since that `LR` took the bus, the bus has seen
only loads of the core until the `SC`; and the `SC` stores alone. -/
theorem sc_atomic (b : Board Dev) (hart : Word isa) (useEBaseIsa : Bool) (entrypoint sp : Word isa)
    (world : Shared Dev) (ignoreWfi : Bool) (free : ¬ world.bus.Held (hart.setWidth 64))
    (run : Run (b.platform (hart.setWidth 64)) (fun _ => True)
      { reset hart useEBaseIsa entrypoint sp world with ignoreWfi := ignoreWfi } s)
    (sc : ScStores b (hart.setWidth 64) addr s u w) :
    (∃ r v, Since b (hart.setWidth 64) addr
      { reset hart useEBaseIsa entrypoint sp world with ignoreWfi := ignoreWfi } r v s) ∧
    (∃ l, u.world.bus.log = s.world.bus.log ++ l ∧ ∀ e ∈ l, isLoad e = true) ∧
    StoresAlone b (hart.setWidth 64) addr u w := by
  have linked : Linked b (hart.setWidth 64)
      { reset hart useEBaseIsa entrypoint sp world with ignoreWfi := ignoreWfi } s := by
    refine linked_of_run ?_ ?_ run
    · rfl
    · exact free
  have flow := sc.prepared.flow linked.hart
  obtain ⟨held, reserved, -⟩ := sc.reserved flow.hart
  obtain ⟨had, loads⟩ := flow.keeps rfl held
  obtain ⟨r, v, since⟩ := linked.held had
  rw [← flow.lrAddr, reserved] at since
  exact ⟨⟨r, v, since⟩, loads, sc.alone flow.hart⟩

/-- `lr.w x5, (x0); sc.w x6, x7, (x0)`, while a peripheral and another core want to write. -/
theorem sc_after_lr : ∃ s u w : Iss .rv32 (Shared Flat), ScStores quietBoard 0 0 s u w ∧
    ∃ r v, Since quietBoard 0 0
      (booted 0x1870232F100022AF [[], [.dma 0 4 7], [.store 1 0 4 7]]) r v s := by
  have run : Run (quietBoard.platform 0) (fun _ => True)
      (booted 0x1870232F100022AF [[], [.dma 0 4 7], [.store 1 0 4 7]])
      ((runStep (quietBoard.platform 0)).run
        (booted 0x1870232F100022AF [[], [.dma 0 4 7], [.store 1 0 4 7]])).2 :=
    Run.start.next trivial (by decide)
  have free : ¬ (booted 0x1870232F100022AF [[], [.dma 0 4 7], [.store 1 0 4 7]]).world.bus.Held 0 :=
    fun held => Bool.false_ne_true held.1
  have sc : ScStores quietBoard 0 0 ((runStep (quietBoard.platform 0)).run
      (booted 0x1870232F100022AF [[], [.dma 0 4 7], [.store 1 0 4 7]])).2 _ _ :=
    { going := fun stop => absurd stop.1 (by decide)
      prepared := ⟨Prod.ext (by decide) rfl⟩
      conditional := by decide
      target := by decide
      stored := Prod.ext (by decide) rfl }
  exact ⟨_, _, _, sc, (sc_atomic quietBoard 0 false 0 0 _ false free run sc).1⟩

end Iss

end RiscvVp
