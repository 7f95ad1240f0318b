/-
# RiscvVp.Iss.Board -- a core among others

A board is what a core shares with other harts and with DMA peripherals: the memory behind
the bus lock, and its devices.  SystemC processes are not preempted, so the others are
switched in only where the process of the core waits: for the lock while another hart has
it, for an interrupt, and between two steps.  A target does not wait in a transaction.

The last lemmas say what becomes of the lock through the accesses of a core.  A core that
has it afterwards had it before, and has only loaded since (`Keeps`), because every store
gives it back; and while it is free or the core's own, nobody else writes (`Undisturbed`).
-/
import RiscvVp.Iss.BusLock
import RiscvVp.Iss.Modes

namespace RiscvVp

set_option autoImplicit false

open Lib Transition

namespace SharedBus

/-- `wait_for_access_rights`, and the wait of `BusLock::lock`. -/
def await (hart : BitVec 64) (w : SharedBus) : Option SharedBus :=
  if w.locked ∧ w.owner ≠ hart then waitUntilUnlocked hart w.agenda w else some w

end SharedBus

/-- The shared memory with its lock, and the devices. -/
structure Shared (Dev : Type) where
  bus : SharedBus
  dev : Dev

structure Board (Dev : Type) where
  /-- The devices, the DMI windows and the parts that are the core's own. -/
  devices : Platform Dev
  /-- The addresses of the bus that belong to the shared memory. -/
  isMemory : BitVec 64 → Bool
  /-- The system-call emulator writes to host memory, past the bus and its lock. -/
  executeSyscall : (number a0 a1 a2 a3 : BitVec 64) → ByteMemory → Dev →
    (BitVec 32 × Bool) × ByteMemory × Dev

namespace Board

variable {Dev : Type} (b : Board Dev) (me : BitVec 64)

/-- The board, as the core `me` sees it. -/
def platform : Platform (Shared Dev) where
  dmiRanges := b.devices.dmiRanges
  hasMmu := b.devices.hasMmu
  instrMem := b.devices.instrMem
  hasSys := b.devices.hasSys
  softfloat := b.devices.softfloat
  lock hart w := (w.bus.await hart).map fun bus => { w with bus := bus.acquire hart }
  unlock hart w := { w with bus := w.bus.unlock hart }
  isLocked hart w := w.bus.locked && w.bus.owner == hart
  waitForAccessRights hart w := (w.bus.await hart).map fun bus => { w with bus := bus }
  busRead addr n w :=
    if b.isMemory addr then (some (w.bus.read addr n).1, { w with bus := (w.bus.read addr n).2 })
    else
      match b.devices.busRead addr n w.dev with
      | (some data, dev) => (some data, ⟨w.bus.record (.load addr n), dev⟩)
      | (none, dev) => (none, ⟨w.bus, dev⟩)
  busWrite addr n value w :=
    if b.isMemory addr then (true, { w with bus := w.bus.write addr n value })
    else
      match b.devices.busWrite addr n value w.dev with
      | (true, dev) => (true, ⟨w.bus.record (.store addr n), dev⟩)
      | (false, dev) => (false, ⟨w.bus, dev⟩)
  dmiRead _ addr n w := ((w.bus.read addr n).1, { w with bus := (w.bus.read addr n).2 })
  dmiWrite _ addr n value w := { w with bus := w.bus.write addr n value }
  updateAndGetMtime w :=
    ((b.devices.updateAndGetMtime w.dev).1, { w with dev := (b.devices.updateAndGetMtime w.dev).2 })
  waitForInterrupt w := (b.devices.waitForInterrupt w.dev).map fun dev => ⟨w.bus.turn me, dev⟩
  executeSyscall number a0 a1 a2 a3 w :=
    let answer := b.executeSyscall number a0 a1 a2 a3 w.bus.bytes w.dev
    (answer.1, ⟨{ w.bus with bytes := answer.2.1 }, answer.2.2⟩)
  irqEvents w := ((b.devices.irqEvents w.dev).1, ⟨w.bus.turn me, (b.devices.irqEvents w.dev).2⟩)

end Board

/-! ## The lock -/

namespace SharedBus

variable {w w' : SharedBus} {me : BitVec 64}

/-- A core that has the lock at the end had it at the beginning, and has only loaded since. -/
def Keeps (me : BitVec 64) (w w' : SharedBus) : Prop :=
  w'.Held me → w.Held me ∧ ∃ l, w'.log = w.log ++ l ∧ ∀ e ∈ l, isLoad e = true

namespace Keeps

theorem of_same (lock : w'.locked = w.locked ∧ w'.owner = w.owner) (log : w'.log = w.log) :
    Keeps me w w' := by
  rintro ⟨locked, owner⟩
  rw [lock.1] at locked
  rw [lock.2] at owner
  exact ⟨⟨locked, owner⟩, [], by simp [log], by simp⟩

theorem of_released (free : ¬ w'.Held me) : Keeps me w w' := fun held => absurd held free

theorem refl (w : SharedBus) : Keeps me w w := of_same ⟨rfl, rfl⟩ rfl

theorem trans {w'' : SharedBus} (first : Keeps me w w') (second : Keeps me w' w'') : Keeps me w w'' := by
  intro held
  obtain ⟨held', l', log', loads'⟩ := second held
  obtain ⟨held'', l, log, loads⟩ := first held'
  refine ⟨held'', l ++ l', by rw [log', log, List.append_assoc], fun e among => ?_⟩
  rcases List.mem_append.mp among with among | among
  · exact loads e among
  · exact loads' e among

end Keeps

theorem keeps_load (w : SharedBus) (addr : BitVec 64) (n : Nat) :
    Keeps me w (w.record (.load addr n)) := by
  intro held
  refine ⟨held, [.load addr n], rfl, fun e among => ?_⟩
  rw [List.mem_singleton.mp among]
  rfl

theorem unlock_released (w : SharedBus) (hart : BitVec 64) : ¬ (w.unlock hart).Held hart := by
  unfold unlock
  split
  · rintro ⟨locked, -⟩
    cases locked
  · rename_i other
    exact other

theorem keeps_unlock (w : SharedBus) (hart : BitVec 64) : Keeps me w (w.unlock hart) := by
  unfold unlock
  split
  · refine .of_released ?_
    rintro ⟨locked, -⟩
    cases locked
  · exact .refl w

/-- Nobody takes the lock for the core. -/
theorem held_of_act {a : OtherAction} (held : (w.act me a).Held me) : w.Held me := by
  by_cases mine : w.Held me
  · exact mine
  have unlocked : ∀ {v : SharedBus} {hart}, ¬ v.Held me → ¬ (v.unlock hart).Held me :=
    fun free held => free (keeps_unlock _ _ held).1
  exfalso
  revert held
  cases a with
  | lock hart =>
    show ¬ (if hart ≠ me ∧ (w.locked → w.owner = hart) then w.acquire hart else w).Held me
    split
    · rename_i allowed
      rintro ⟨-, owner⟩
      exact allowed.1 owner
    · exact mine
  | unlock hart =>
    show ¬ (if hart ≠ me then w.unlock hart else w).Held me
    split
    · exact unlocked mine
    · exact mine
  | store hart addr n value =>
    show ¬ (if hart ≠ me ∧ (w.locked → w.owner = hart) then (w.poke addr n value).unlock hart
      else w).Held me
    split
    · exact unlocked (v := w.poke addr n value) mine
    · exact mine
  | dma addr n value =>
    show ¬ (if w.locked then w else w.poke addr n value).Held me
    split <;> exact mine

theorem keeps_acts (w : SharedBus) (batch : List OtherAction) :
    Keeps me w (batch.foldl (fun w a => w.act me a) w) := by
  induction batch generalizing w with
  | nil => exact .refl w
  | cons a batch ih =>
    refine Keeps.trans ?_ (ih (w.act me a))
    intro held
    have mine := held_of_act held
    rw [act_of_held mine]
    exact Keeps.refl w mine

theorem keeps_turn (w : SharedBus) : Keeps me w (w.turn me) := by
  unfold turn
  split
  · exact .refl w
  · exact Keeps.trans (.of_same ⟨rfl, rfl⟩ rfl) (keeps_acts _ _)

theorem waitUntilUnlocked_free {agenda : List (List OtherAction)}
    (waited : waitUntilUnlocked me agenda w = some w') : w'.locked = false := by
  induction agenda generalizing w with
  | nil =>
    unfold waitUntilUnlocked at waited
    split at waited
    · cases waited
    · rename_i free
      cases waited
      exact Bool.eq_false_iff.mpr free
  | cons batch rest ih =>
    unfold waitUntilUnlocked at waited
    split at waited
    · exact ih waited
    · rename_i free
      cases waited
      exact Bool.eq_false_iff.mpr free

/-- The lock is free, or the core's own. -/
def Open (w : SharedBus) (hart : BitVec 64) : Prop := w.locked = true → w.owner = hart

theorem unlock_of_open {hart : BitVec 64} (free : w.Open hart) : (w.unlock hart).locked = false := by
  unfold unlock
  split
  · rfl
  · rename_i other
    rw [Bool.eq_false_iff]
    exact fun locked => other ⟨locked, free locked⟩

theorem await_open {hart : BitVec 64} (waited : w.await hart = some w') : w'.Open hart := by
  unfold await at waited
  split at waited
  · intro locked
    rw [waitUntilUnlocked_free waited] at locked
    cases locked
  · rename_i free
    cases waited
    intro locked
    by_contra other
    exact free ⟨locked, other⟩

theorem await_of_open {hart : BitVec 64} (free : w.Open hart) : w.await hart = some w := by
  unfold await
  rw [if_neg]
  rintro ⟨locked, other⟩
  exact other (free locked)

theorem keeps_await {hart : BitVec 64} (waited : w.await hart = some w') : Keeps me w w' := by
  unfold await at waited
  split at waited
  · refine .of_released ?_
    rintro ⟨locked, -⟩
    rw [waitUntilUnlocked_free waited] at locked
    cases locked
  · cases waited
    exact .refl w

/-- While the lock is open to the core it stays so, and nobody else writes. -/
def Undisturbed (me : BitVec 64) (w w' : SharedBus) : Prop :=
  w.Open me → w'.Open me ∧ ∃ l, w'.log = w.log ++ l ∧ ∀ e ∈ l, ∀ addr, e ≠ .foreign addr

namespace Undisturbed

theorem of_same (lock : w'.locked = w.locked ∧ w'.owner = w.owner) (log : w'.log = w.log) :
    Undisturbed me w w' := by
  intro free
  refine ⟨fun locked => ?_, [], by simp [log], by simp⟩
  rw [lock.1] at locked
  exact lock.2.trans (free locked)

theorem refl (w : SharedBus) : Undisturbed me w w := of_same ⟨rfl, rfl⟩ rfl

theorem trans {w'' : SharedBus} (first : Undisturbed me w w') (second : Undisturbed me w' w'') :
    Undisturbed me w w'' := by
  intro free
  obtain ⟨free', l, log, own⟩ := first free
  obtain ⟨free'', l', log', own'⟩ := second free'
  refine ⟨free'', l ++ l', by rw [log', log, List.append_assoc], fun e among => ?_⟩
  rcases List.mem_append.mp among with among | among
  · exact own e among
  · exact own' e among

theorem record (w : SharedBus) {e : BusEvent} (own : ∀ addr, e ≠ .foreign addr) :
    Undisturbed me w (w.record e) := fun free =>
  ⟨free, [e], rfl, fun d among => by rw [List.mem_singleton.mp among]; exact own⟩

theorem unlock (w : SharedBus) (hart : BitVec 64) : Undisturbed me w (w.unlock hart) := by
  unfold SharedBus.unlock
  split
  · intro _
    refine ⟨nofun, [.released hart], rfl, fun d among => ?_⟩
    rw [List.mem_singleton.mp among]
    nofun
  · exact .refl w

end Undisturbed

end SharedBus

namespace Board

open SharedBus Platform

variable {Dev : Type} (b : Board Dev) (me : BitVec 64)

/-! ## The accesses of a core -/

/-- `B`, of the bus, for what returns. -/
def OnBus (B : SharedBus → SharedBus → Prop) (w : Shared Dev) (o : Option Exc) (w' : Shared Dev) :
    Prop := o = none → B w.bus w'.bus

section OnBus

variable (B : SharedBus → SharedBus → Prop) [IsPreorder SharedBus B]

instance : Closed (@OnBus Dev B) where
  refl w _ := refl_of B w.bus
  trans first second returns := trans_of B (first rfl) (second returns)

variable {B} {hart : BitVec 64}

omit [IsPreorder SharedBus B] in
theorem onBus_await {wait : SharedBus → Option SharedBus} (waits : ∀ {w w'}, wait w = some w' → B w w') :
    Sat (OnBus B)
      (Platform.await fun w : Shared Dev => (wait w.bus).map fun bus => { w with bus := bus }) where
  holds w := by
    cases answer : wait w.bus with
    | none =>
      have none : (fun w : Shared Dev => (wait w.bus).map fun bus => { w with bus := bus }) w = none := by
        simp only [answer, Option.map_none]
      rw [run_await_none none]
      exact nofun
    | some bus =>
      have some : (fun w : Shared Dev => (wait w.bus).map fun bus => { w with bus := bus }) w =
          some { w with bus := bus } := by
        simp only [answer, Option.map_some]
      rw [run_await_some some]
      exact fun _ => waits answer

theorem onBus_dmiCheck (e : MemoryDMI) (addr : BitVec 64) (n : Nat) :
    Sat (OnBus B) (dmiCheck e addr n : Exec (Shared Dev) Exc Unit) := by
  unfold dmiCheck
  exact .ite (fun _ => inferInstance) fun _ => .raise fun _ => nofun

section Load

variable (loads : ∀ w addr n, B w (w.record (.load addr n)))

include loads

theorem onBus_dmiLoad (e : MemoryDMI) (addr : BitVec 64) (n : Nat) :
    Sat (OnBus B) ((b.platform me).dmiLoad e addr n) :=
  .bind (onBus_dmiCheck e addr n) fun _ => .call fun w _ => loads w.bus addr n

omit [IsPreorder SharedBus B] in
theorem onBus_busLoad (addr : BitVec 64) (n : Nat) : Sat (OnBus B) ((b.platform me).busLoad addr n) where
  holds w := by
    by_cases memory : b.isMemory addr = true
    · have answer : (b.platform me).busRead addr n w =
          (some (w.bus.read addr n).1, { w with bus := (w.bus.read addr n).2 }) := if_pos memory
      rw [run_busLoad_some answer]
      exact fun _ => loads w.bus addr n
    · cases device : b.devices.busRead addr n w.dev with
      | mk data dev =>
        cases data with
        | none =>
          have answer : (b.platform me).busRead addr n w = (none, ⟨w.bus, dev⟩) := by
            simp only [platform, if_neg memory, device]
          rw [run_busLoad_none answer]
          exact nofun
        | some data =>
          have answer : (b.platform me).busRead addr n w =
              (some data, ⟨w.bus.record (.load addr n), dev⟩) := by
            simp only [platform, if_neg memory, device]
          rw [run_busLoad_some answer]
          exact fun _ => loads w.bus addr n

theorem onBus_rawLoadData (waits : ∀ {w w'}, SharedBus.await hart w = some w' → B w w')
    (addr : BitVec 64) (n : Nat) : Sat (OnBus B) ((b.platform me).rawLoadData hart addr n) := by
  refine .bind (onBus_await waits) fun _ => ?_
  split
  · exact onBus_dmiLoad b me loads _ _ _
  · exact onBus_busLoad b me loads _ _

end Load

section Store

variable (stores : ∀ w addr n (value : BitVec (8 * n)), B w (w.write addr n value))
  (devices : ∀ w addr n, B w (w.record (.store addr n)))

include stores

theorem onBus_dmiStores (addr : BitVec 64) (n : Nat) (value : BitVec (8 * n)) (ranges : List MemoryDMI) :
    Sat (OnBus B) ((b.platform me).dmiStores addr n value ranges) := by
  induction ranges with
  | nil => exact Sat.instPure ()
  | cons e ranges ih =>
    have stored : Sat (OnBus B) ((b.platform me).dmiStore e addr n value) :=
      .bind (onBus_dmiCheck e addr n) fun _ => .update fun w _ => stores w.bus addr n value
    exact .bind inferInstance fun _ => ih

include devices

omit [IsPreorder SharedBus B] in
theorem onBus_busStore (addr : BitVec 64) (n : Nat) (value : BitVec (8 * n)) :
    Sat (OnBus B) ((b.platform me).busStore addr n value) where
  holds w := by
    by_cases memory : b.isMemory addr = true
    · have answer : (b.platform me).busWrite addr n value w =
          (true, { w with bus := w.bus.write addr n value }) := if_pos memory
      rw [run_busStore_true answer]
      exact fun _ => stores w.bus addr n value
    · cases device : b.devices.busWrite addr n value w.dev with
      | mk accepted dev =>
        cases accepted with
        | false =>
          have answer : (b.platform me).busWrite addr n value w = (false, ⟨w.bus, dev⟩) := by
            simp only [platform, if_neg memory, device]
          rw [run_busStore_false answer]
          exact nofun
        | true =>
          have answer : (b.platform me).busWrite addr n value w =
              (true, ⟨w.bus.record (.store addr n), dev⟩) := by
            simp only [platform, if_neg memory, device]
          rw [run_busStore_true answer]
          exact fun _ => devices w.bus addr n

end Store

end OnBus

/-! ### What becomes of the lock -/

instance : IsPreorder SharedBus (Keeps me) where
  refl := .refl
  trans _ _ _ := Keeps.trans

instance : IsPreorder SharedBus (Undisturbed me) where
  refl := .refl
  trans _ _ _ := Undisturbed.trans

/-- The lock is as it was. -/
def SameLock (w w' : SharedBus) : Prop := w'.locked = w.locked ∧ w'.owner = w.owner

instance : IsPreorder SharedBus SameLock where
  refl _ := ⟨rfl, rfl⟩
  trans _ _ _ first second := ⟨second.1.trans first.1, second.2.trans first.2⟩

/-- A store leaves the bus unlocked. -/
theorem rawStoreData_frees {hart addr : BitVec 64} {n : Nat} {value : BitVec (8 * n)}
    {w w' : Shared Dev} (ran : ((b.platform me).rawStoreData hart addr n value).run w = (.ok (), w')) :
    w'.bus.locked = false := by
  obtain ⟨_, u, awaited, rest⟩ := Exec.run_bind_eq_ok.mp ran
  obtain ⟨_, v, windows, rest⟩ := Exec.run_bind_eq_ok.mp rest
  obtain ⟨_, x, asked, unlocked⟩ := Exec.run_bind_eq_ok.mp rest
  have entered : u.bus.Open hart := by
    cases answer : w.bus.await hart with
    | none =>
      have none : (b.platform me).waitForAccessRights hart w = none := by
        simp only [platform, answer, Option.map_none]
      rw [run_await_none none] at awaited
      cases awaited
    | some bus =>
      have some : (b.platform me).waitForAccessRights hart w = some { w with bus := bus } := by
        simp only [platform, answer, Option.map_some]
      rw [run_await_some some] at awaited
      cases awaited
      exact await_open answer
  have loop := (onBus_dmiStores (B := SameLock) b me (fun _ _ _ _ => ⟨rfl, rfl⟩) addr n value _).ok windows rfl
  have bus := onBus_busStore (B := SameLock) b me (fun _ _ _ _ => ⟨rfl, rfl⟩) (fun _ _ _ => ⟨rfl, rfl⟩)
    addr n value
  have stored : SameLock v.bus x.bus := (inferInstance : Sat (OnBus SameLock) _).ok asked rfl
  cases unlocked
  have lock : SameLock u.bus x.bus := trans_of SameLock loop stored
  exact unlock_of_open fun locked => lock.2.trans (entered (lock.1.symm.trans locked))

/-- What a core asks of the board, the lock apart, does not take the lock for it. -/
instance : Iss.Governs (b.platform me) (OnBus (Keeps me)) where
  unlock hart := .update fun w _ => keeps_unlock w.bus hart
  load hart := onBus_rawLoadData b me keeps_load keeps_await
  store hart addr n value := ⟨fun w => by
    cases ran : ((b.platform me).rawStoreData hart addr n value).run w with
    | mk result w' =>
      cases result with
      | error e => exact nofun
      | ok _ =>
        intro _
        refine .of_released ?_
        rintro ⟨locked, -⟩
        rw [rawStoreData_frees b me ran] at locked
        cases locked⟩
  proxy e addr := onBus_dmiLoad b me keeps_load e addr 4
  mtime := .call fun w _ => .refl w.bus
  sleep := ⟨fun w => by
    cases answer : b.devices.waitForInterrupt w.dev with
    | none =>
      have none : (b.platform me).waitForInterrupt w = none := by
        simp only [platform, answer, Option.map_none]
      rw [run_await_none none]
      exact nofun
    | some dev =>
      have some : (b.platform me).waitForInterrupt w = some ⟨w.bus.turn me, dev⟩ := by
        simp only [platform, answer, Option.map_some]
      rw [run_await_some some]
      exact fun _ => keeps_turn w.bus⟩
  syscall _ _ _ _ _ := .call fun _ _ => .of_same ⟨rfl, rfl⟩ rfl
  events := .call fun w _ => keeps_turn w.bus

theorem undisturbed_await {w w' : SharedBus} (waited : w.await me = some w') : Undisturbed me w w' := by
  intro free
  rw [await_of_open free] at waited
  cases waited
  exact Undisturbed.refl w free

theorem undisturbed_rawLoadData (addr : BitVec 64) (n : Nat) :
    Sat (OnBus (Undisturbed me)) ((b.platform me).rawLoadData me addr n) :=
  onBus_rawLoadData b me (fun w _ _ => .record w nofun) (undisturbed_await me) addr n

theorem undisturbed_rawStoreData (addr : BitVec 64) (n : Nat) (value : BitVec (8 * n)) :
    Sat (OnBus (Undisturbed me)) ((b.platform me).rawStoreData me addr n value) := by
  have stores : ∀ w addr n (value : BitVec (8 * n)), Undisturbed me w (w.write addr n value) :=
    fun w addr n value =>
      have bytes : Undisturbed me w { w with bytes := w.bytes.write addr n value } :=
        .of_same ⟨rfl, rfl⟩ rfl
      bytes.trans (.record _ nofun)
  have bus := onBus_busStore b me stores (fun w _ _ => .record w nofun) addr n value
  refine .bind (onBus_await (undisturbed_await me)) fun _ => ?_
  refine .bind (onBus_dmiStores b me stores addr n value _) fun _ => .bind inferInstance fun _ => ?_
  exact .update fun w _ => .unlock w.bus me

end Board

end RiscvVp
