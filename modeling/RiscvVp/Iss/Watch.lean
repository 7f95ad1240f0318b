/-
# RiscvVp.Iss.Watch -- what the bus refuses

An error response of the bus becomes a trap in `_do_transaction`, which knows whether it
read or wrote and at what address of the bus, but not what for.  `Platform.watch` is a
platform with a record of its refusals next to its world: it answers as the platform does,
and the core cannot see the record.  Nothing that the core does goes on after a refusal, so
a piece of code either adds nothing to the record, or it ends with the trap of the one
transaction that it adds (`Told`).
-/
import RiscvVp.Iss.Modes

namespace RiscvVp

set_option autoImplicit false

open Lib Transition

/-- A transaction that was answered with an error. -/
structure Refusal where
  isWrite : Bool
  addr : BitVec 64
deriving DecidableEq, Repr

/-- What `_do_transaction` makes of it. -/
def Refusal.trap (r : Refusal) : SimulationTrap :=
  ⟨if r.isWrite then .storeAmoPageFault else .loadPageFault, r.addr⟩

/-- A world, with what its bus has refused, the last first. -/
abbrev Watched (World : Type) := World × List Refusal

namespace Platform

variable {World : Type} (plat : Platform World)

def watch : Platform (Watched World) where
  dmiRanges := plat.dmiRanges
  hasMmu := plat.hasMmu
  instrMem := plat.instrMem
  hasSys := plat.hasSys
  softfloat := plat.softfloat
  lock hart w := (plat.lock hart w.1).map (·, w.2)
  unlock hart w := (plat.unlock hart w.1, w.2)
  isLocked hart w := plat.isLocked hart w.1
  waitForAccessRights hart w := (plat.waitForAccessRights hart w.1).map (·, w.2)
  busRead addr n w :=
    match plat.busRead addr n w.1 with
    | (some data, w') => (some data, w', w.2)
    | (none, w') => (none, w', ⟨false, addr⟩ :: w.2)
  busWrite addr n value w :=
    match plat.busWrite addr n value w.1 with
    | (true, w') => (true, w', w.2)
    | (false, w') => (false, w', ⟨true, addr⟩ :: w.2)
  dmiRead e addr n w := ((plat.dmiRead e addr n w.1).1, (plat.dmiRead e addr n w.1).2, w.2)
  dmiWrite e addr n value w := (plat.dmiWrite e addr n value w.1, w.2)
  updateAndGetMtime w := ((plat.updateAndGetMtime w.1).1, (plat.updateAndGetMtime w.1).2, w.2)
  waitForInterrupt w := (plat.waitForInterrupt w.1).map (·, w.2)
  executeSyscall number a0 a1 a2 a3 w :=
    ((plat.executeSyscall number a0 a1 a2 a3 w.1).1, (plat.executeSyscall number a0 a1 a2 a3 w.1).2, w.2)
  irqEvents w := ((plat.irqEvents w.1).1, (plat.irqEvents w.1).2, w.2)

/-! ## The record -/

/-- A transaction is recorded if and only if it ends in its trap. -/
def Recorded (w : Watched World) (o : Option Exc) (w' : Watched World) : Prop :=
  w'.2 = w.2 ∧ (∀ e, o ≠ some (.trap e)) ∨ ∃ r, w'.2 = r :: w.2 ∧ o = some (.trap r.trap)

theorem recorded_none {w w' : Watched World} (same : w'.2 = w.2) : Recorded w none w' :=
  .inl ⟨same, nofun⟩

instance : Closed (@Recorded World) where
  refl _ := recorded_none rfl
  trans {w w' o w''} first second := by
    obtain ⟨same, -⟩ | ⟨r, -, trap⟩ := first
    · rcases second with ⟨same', rest⟩ | ⟨r, added, trap⟩
      · exact .inl ⟨same'.trans same, rest⟩
      · exact .inr ⟨r, same ▸ added, trap⟩
    · cases trap

theorem recorded_await (wait : World → Option World) :
    Sat Recorded (await fun w : Watched World => (wait w.1).map (·, w.2)) where
  holds w := by
    cases answer : wait w.1 with
    | none =>
      have none : (fun w : Watched World => (wait w.1).map (·, w.2)) w = none := by
        simp only [answer, Option.map_none]
      rw [run_await_none none]
      exact .inl ⟨rfl, nofun⟩
    | some w' =>
      have some : (fun w : Watched World => (wait w.1).map (·, w.2)) w = some (w', w.2) := by
        simp only [answer, Option.map_some]
      rw [run_await_some some]
      exact recorded_none rfl

theorem recorded_dmiCheck (e : MemoryDMI) (addr : BitVec 64) (n : Nat) :
    Sat Recorded (dmiCheck e addr n : Exec (Watched World) Exc Unit) := by
  unfold dmiCheck
  exact .ite (fun _ => inferInstance) fun _ => .raise fun _ => .inl ⟨rfl, nofun⟩

theorem recorded_dmiLoad (e : MemoryDMI) (addr : BitVec 64) (n : Nat) :
    Sat Recorded (plat.watch.dmiLoad e addr n) :=
  .bind (recorded_dmiCheck e addr n) fun _ => .call fun _ => recorded_none rfl

theorem recorded_busLoad (addr : BitVec 64) (n : Nat) : Sat Recorded (plat.watch.busLoad addr n) where
  holds w := by
    cases answer : plat.busRead addr n w.1 with
    | mk data w' =>
      cases data with
      | none =>
        have refused : plat.watch.busRead addr n w = (none, w', ⟨false, addr⟩ :: w.2) := by
          simp only [watch, answer]
        rw [run_busLoad_none refused]
        exact .inr ⟨⟨false, addr⟩, rfl, rfl⟩
      | some data =>
        have accepted : plat.watch.busRead addr n w = (some data, w', w.2) := by
          simp only [watch, answer]
        rw [run_busLoad_some accepted]
        exact recorded_none rfl

theorem recorded_busStore (addr : BitVec 64) (n : Nat) (value : BitVec (8 * n)) :
    Sat Recorded (plat.watch.busStore addr n value) where
  holds w := by
    cases answer : plat.busWrite addr n value w.1 with
    | mk stored w' =>
      cases stored with
      | false =>
        have refused : plat.watch.busWrite addr n value w = (false, w', ⟨true, addr⟩ :: w.2) := by
          simp only [watch, answer]
        rw [run_busStore_false refused]
        exact .inr ⟨⟨true, addr⟩, rfl, rfl⟩
      | true =>
        have accepted : plat.watch.busWrite addr n value w = (true, w', w.2) := by
          simp only [watch, answer]
        rw [run_busStore_true accepted]
        exact recorded_none rfl

theorem recorded_rawLoadData (hart addr : BitVec 64) (n : Nat) :
    Sat Recorded (plat.watch.rawLoadData hart addr n) := by
  refine .bind (recorded_await _) fun _ => ?_
  split
  · exact recorded_dmiLoad plat _ _ _
  · exact recorded_busLoad plat _ _

theorem recorded_dmiStores (addr : BitVec 64) (n : Nat) (value : BitVec (8 * n))
    (ranges : List MemoryDMI) : Sat Recorded (plat.watch.dmiStores addr n value ranges) := by
  induction ranges with
  | nil => exact Sat.instPure ()
  | cons e ranges ih =>
    have stored : Sat Recorded (plat.watch.dmiStore e addr n value) :=
      .bind (recorded_dmiCheck e addr n) fun _ => .update fun _ => recorded_none rfl
    exact .bind inferInstance fun _ => ih

theorem recorded_rawStoreData (hart addr : BitVec 64) (n : Nat) (value : BitVec (8 * n)) :
    Sat Recorded (plat.watch.rawStoreData hart addr n value) := by
  have asked := recorded_busStore plat addr n value
  refine .bind (recorded_await _) fun _ => .bind (recorded_dmiStores _ _ _ _ _) fun _ => ?_
  exact .bind inferInstance fun _ => .update fun _ => recorded_none rfl

end Platform

namespace Iss

open Platform

variable {isa : Isa} {World : Type}

instance (plat : Platform World) : Governs plat.watch Recorded where
  unlock _ := .update fun _ => recorded_none rfl
  load := recorded_rawLoadData plat
  store := recorded_rawStoreData plat
  proxy e addr := recorded_dmiLoad plat e addr 4
  mtime := .call fun _ => recorded_none rfl
  sleep := recorded_await _
  syscall _ _ _ _ _ := .call fun _ => recorded_none rfl
  events := .call fun _ => recorded_none rfl

/-! ## The traps -/

/-- What the bus has refused so far. -/
def refusals (s : Iss isa (Watched World)) : List Refusal := s.world.2

/-- A trap is one of `P` and nothing was refused, or it is, by `Q`, that of the one
transaction that was. -/
def Told (P : SimulationTrap → Prop) (Q : Refusal → SimulationTrap → Prop)
    (s : Iss isa (Watched World)) (o : Option Exc) (t : Iss isa (Watched World)) : Prop :=
  t.refusals = s.refusals ∧ (∀ e, o = some (.trap e) → P e) ∨
    ∃ r e, t.refusals = r :: s.refusals ∧ o = some (.trap e) ∧ Q r e

section Told

variable {P : SimulationTrap → Prop} {Q : Refusal → SimulationTrap → Prop}
  {s t : Iss isa (Watched World)}

theorem told_none (same : t.refusals = s.refusals) : Told P Q s none t := .inl ⟨same, nofun⟩

theorem told_trap {e : SimulationTrap} (allowed : P e) : Told P Q s (some (.trap e)) s :=
  .inl ⟨rfl, fun _ same => by cases same; exact allowed⟩

theorem Told.mono {P' : SimulationTrap → Prop} {o : Option Exc} (weaker : ∀ e, P e → P' e)
    (told : Told P Q s o t) : Told P' Q s o t := by
  rcases told with ⟨same, allowed⟩ | refused
  · exact .inl ⟨same, fun e ended => weaker e (allowed e ended)⟩
  · exact .inr refused

instance : Closed (@Told isa World P Q) where
  refl _ := told_none rfl
  trans {s t o u} first second := by
    obtain ⟨same, -⟩ | ⟨_, _, -, trap, -⟩ := first
    · rcases second with ⟨same', rest⟩ | ⟨r, e, added, rest⟩
      · exact .inl ⟨same'.trans same, rest⟩
      · exact .inr ⟨r, e, same ▸ added, rest⟩
    · cases trap

theorem lifts_told (own : ∀ r : Refusal, Q r r.trap) : Lifts Recorded (@Told isa World P Q) where
  world s o w recorded := by
    rcases recorded with ⟨same, rest⟩ | ⟨r, added, trap⟩
    · exact .inl ⟨same, fun e ended => absurd ended (rest e)⟩
    · exact .inr ⟨r, r.trap, added, trap, own r⟩

/-- While `m` runs the bus refuses the transaction `r`. -/
def Refuses {α : Type} (m : IssM isa (Watched World) α) (s : Iss isa (Watched World)) (r : Refusal) :
    Prop := (m.run s).2.refusals = r :: s.refusals

end Told

end Iss

/-- A refusal is told by the trap that `m` ends with ... -/
theorem Lib.SatAt.of_refuses {isa : Isa} {World α : Type} {P : SimulationTrap → Prop}
    {Q : Refusal → SimulationTrap → Prop} {s : Iss isa (Watched World)}
    {m : IssM isa (Watched World) α} (told : SatAt (Iss.Told P Q) m s) {r : Refusal}
    (refuses : Iss.Refuses m s r) : ∃ e t, m.run s = (.error (.trap e), t) ∧ Q r e := by
  unfold SatAt at told
  unfold Iss.Refuses at refuses
  cases ran : m.run s with
  | mk result t =>
    rw [ran] at told refuses
    rcases told with ⟨same, -⟩ | ⟨r', e, added, ended, tells⟩
    · have longer := congrArg List.length (same.symm.trans refuses)
      simp at longer
    · cases added.symm.trans refuses
      cases result with
      | ok _ => cases ended
      | error e' =>
        cases ended
        exact ⟨e, t, rfl, tells⟩

/-- ... and a trap is one of `P` or tells of a refusal. -/
theorem Lib.SatAt.of_trap {isa : Isa} {World α : Type} {P : SimulationTrap → Prop}
    {Q : Refusal → SimulationTrap → Prop} {s t : Iss isa (Watched World)}
    {m : IssM isa (Watched World) α} (told : SatAt (Iss.Told P Q) m s) {e : SimulationTrap}
    (ran : m.run s = (.error (.trap e), t)) : P e ∨ ∃ r, Iss.Refuses m s r ∧ Q r e := by
  unfold SatAt at told
  unfold Iss.Refuses
  rw [ran] at told ⊢
  rcases told with ⟨-, allowed⟩ | ⟨r, e', added, ended, tells⟩
  · exact .inl (allowed e rfl)
  · cases ended
    exact .inr ⟨r, added, tells⟩

end RiscvVp
