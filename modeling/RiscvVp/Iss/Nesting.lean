/-
# RiscvVp.Iss.Nesting -- traps nest and return

A trap handler runs with the stacks of the levels up to its own holding what was interrupted.
Handlers that are entered from it are of higher levels, so they push and pop elsewhere: what
is stacked for the handler's own level is still there when it returns.
-/
import RiscvVp.Iss.Handlers

namespace RiscvVp.Iss

set_option autoImplicit false

open Lib

variable {isa : Isa} {World : Type}

/-- `mstatus`, the `epc` registers and the level stay. -/
structure Quiet (s t : Iss isa World) : Prop where
  prv : t.prv = s.prv
  status : t.csrs.reg .mstatus = s.csrs.reg .mstatus
  epc : ∀ level, t.csrs.reg (trapRegs level).epc = s.csrs.reg (trapRegs level).epc

/-- A stretch of a handler of level `handler`: code that is `Quiet`, and traps to higher levels
from which it has returned. -/
inductive Handling (plat : Platform World) : PrivilegeLevel → Iss isa World → Iss isa World → Prop where
  | quiet {handler : PrivilegeLevel} {s t : Iss isa World} : Quiet s t → Handling plat handler s t
  | seq {handler : PrivilegeLevel} {s t u : Iss isa World} : Handling plat handler s t →
      Handling plat handler t u → Handling plat handler s u
  | trap {handler level : PrivilegeLevel} {s t u v : Iss isa World} : KnownLevel level →
      handler < level → (switchToTrapHandler plat level).run s = (.ok (), t) →
      Handling plat level t u → (returnFromTrapHandler level).run u = (.ok (), v) →
      Handling plat handler s v

/-- Traps from which the core has returned, one after the other, while the interrupted code
stands still.  Causes and trap values may change. -/
inductive Interrupted (plat : Platform World) : Iss isa World → Iss isa World → Prop where
  | start (s : Iss isa World) : Interrupted plat s s
  | quiet {s t u : Iss isa World} : Interrupted plat s t → Quiet t u → u.pc = t.pc →
      Interrupted plat s u
  | trap {level : PrivilegeLevel} {s t u v w : Iss isa World} : Interrupted plat s t →
      KnownLevel level → t.prv ≤ level → (switchToTrapHandler plat level).run t = (.ok (), u) →
      Handling plat level u v → (returnFromTrapHandler level).run v = (.ok (), w) →
      Interrupted plat s w

/-- The `epc` and the part of `mstatus` that belong to `level` are the same. -/
structure StackKept (level : PrivilegeLevel) (s t : Iss isa World) : Prop where
  epc : t.csrs.reg (trapRegs level).epc = s.csrs.reg (trapRegs level).epc
  status : SameStack level (s.csrs.reg .mstatus) (t.csrs.reg .mstatus)

/-- What a stretch of a handler leaves: its level, the enable bits, and the stacks up to its
own. -/
structure Guarded (handler : PrivilegeLevel) (s t : Iss isa World) : Prop where
  prv : t.prv = s.prv
  ie : ∀ level, KnownLevel level → (trapRegs level).ie.get (t.csrs.reg .mstatus) =
    (trapRegs level).ie.get (s.csrs.reg .mstatus)
  stack : ∀ level, KnownLevel level → level ≤ handler → StackKept level s t

section Bracket

variable {plat : Platform World} {level other : PrivilegeLevel} {s t u v : Iss isa World}

theorem epc_of_entered (known : KnownLevel level) (exists_ : KnownLevel other) (apart : other ≠ level) :
    (entered plat level s).csrs.reg (trapRegs other).epc = s.csrs.reg (trapRegs other).epc := by
  rcases known with rfl | rfl | rfl <;> rcases exists_ with rfl | rfl | rfl
  all_goals first
    | exact absurd rfl apart
    | rfl

/-- Entering a handler leaves the stacks of the other levels. -/
theorem stackKept_entered (known : KnownLevel level) (exists_ : KnownLevel other)
    (apart : other ≠ level) : StackKept other s (entered plat level s) where
  epc := epc_of_entered known exists_ apart
  status := by
    show SameStack other _ ((setCsr .mstatus _ _).csrs.reg .mstatus)
    rw [setCsr_reg_self]
    exact sameStack_pushed known exists_ apart

/-- So does the return. -/
theorem stackKept_returned (known : KnownLevel level) (exists_ : KnownLevel other)
    (apart : other ≠ level) : StackKept other s (returned level s) where
  epc := by rcases exists_ with rfl | rfl | rfl <;> rfl
  status := by
    show SameStack other _ ((setCsr .mstatus _ _).csrs.reg .mstatus)
    rw [setCsr_reg_self]
    exact sameStack_popped known exists_ apart

theorem StackKept.trans (first : StackKept level s t) (second : StackKept level t u) :
    StackKept level s u :=
  ⟨second.epc.trans first.epc, second.status.ie.trans first.status.ie,
    second.status.pie.trans first.status.pie, second.status.previous.trans first.status.previous⟩

/-- A trap and the return from it, around a handler that keeps the stacks. -/
theorem bracket (known : KnownLevel level) (below : s.prv ≤ level)
    (enters : (switchToTrapHandler plat level).run s = (.ok (), t)) (kept : Guarded level t u)
    (returns : (returnFromTrapHandler level).run u = (.ok (), v)) :
    v.pc = s.pc ∧ v.prv = s.prv ∧
      (∀ other, KnownLevel other → (trapRegs other).ie.get (v.csrs.reg .mstatus) =
        (trapRegs other).ie.get (s.csrs.reg .mstatus)) ∧
      ∀ other, KnownLevel other → other < level → StackKept other s v := by
  rw [run_switchToTrapHandler s plat known] at enters
  rw [run_returnFromTrapHandler u known] at returns
  cases enters
  cases returns
  have status : (entered plat level s).csrs.reg .mstatus =
      pushed level s.prv (s.csrs.reg .mstatus) := setCsr_reg_self _ _ _
  have own := kept.stack level known (BitVec.le_refl _)
  have epc : (entered plat level s).csrs.reg (trapRegs level).epc = s.pc := by
    rcases known with rfl | rfl | rfl <;> rfl
  refine ⟨own.epc.trans epc, ?_, ?_, ?_⟩
  · show previous level (u.csrs.reg .mstatus) = s.prv
    rw [own.status.previous, status, previous_pushed known below]
  · intro other exists_
    have final : (returned level u).csrs.reg .mstatus = popped level _ (u.csrs.reg .mstatus) :=
      setCsr_reg_self _ _ _
    by_cases same : other = level
    · subst same
      rw [final, ie_popped known, own.status.pie, status, pie_pushed known]
    · rw [final, (sameStack_popped known exists_ same).ie, kept.ie other exists_, status,
        (sameStack_pushed known exists_ same).ie]
  · intro other exists_ lower
    have apart : other ≠ level := BitVec.ne_of_lt lower
    exact ((stackKept_entered known exists_ apart).trans
      (kept.stack other exists_ (BitVec.le_of_lt lower))).trans
        (stackKept_returned known exists_ apart)

end Bracket

section Nest

variable {plat : Platform World} {handler : PrivilegeLevel} {s t : Iss isa World}

theorem Quiet.guarded (quiet : Quiet s t) : Guarded handler s t where
  prv := quiet.prv
  ie _ _ := by rw [quiet.status]
  stack level _ _ :=
    ⟨quiet.epc level, by rw [quiet.status], by rw [quiet.status], by rw [quiet.status]⟩

/-- The stretches of a handler keep the stacks up to its level. -/
theorem Handling.guarded (handling : Handling plat handler s t) (running : s.prv = handler) :
    Guarded handler s t := by
  -- the handlers inside are of higher levels, for which the same holds by induction
  induction handling with
  | quiet quiet => exact quiet.guarded
  | seq _ _ first second =>
    have before := first running
    have after := second (before.prv.trans running)
    exact
      { prv := after.prv.trans before.prv
        ie := fun level known => (after.ie level known).trans (before.ie level known)
        stack := fun level known low => (before.stack level known low).trans (after.stack level known low) }
  | @trap handler level s t u v known higher enters _ returns ih =>
    have inside : t.prv = level := by
      rw [run_switchToTrapHandler s plat known] at enters
      cases enters
      rfl
    have below : s.prv ≤ level := running ▸ BitVec.le_of_lt higher
    obtain ⟨-, prv, ie, stack⟩ := bracket known below enters (ih inside) returns
    exact ⟨prv, ie, fun other exists_ low => stack other exists_ (by bv_omega)⟩

/-- After any well-nested traps the core is back where it was. -/
theorem interrupted_restores (interrupted : Interrupted plat s t) :
    t.pc = s.pc ∧ t.prv = s.prv ∧
      Mstatus.uie.get (t.csrs.reg .mstatus) = Mstatus.uie.get (s.csrs.reg .mstatus) ∧
      Mstatus.sie.get (t.csrs.reg .mstatus) = Mstatus.sie.get (s.csrs.reg .mstatus) ∧
      Mstatus.mie.get (t.csrs.reg .mstatus) = Mstatus.mie.get (s.csrs.reg .mstatus) := by
  induction interrupted with
  | start => exact ⟨rfl, rfl, rfl, rfl, rfl⟩
  | quiet _ quiet stands ih =>
    rw [stands, quiet.prv, quiet.status]
    exact ih
  | @trap level s t u v w _ known below enters handling returns ih =>
    have inside : u.prv = level := by
      rw [run_switchToTrapHandler t plat known] at enters
      cases enters
      rfl
    obtain ⟨pc, prv, ie, -⟩ := bracket known below enters (handling.guarded inside) returns
    have user := ie userMode (.inl rfl)
    have supervisor := ie supervisorMode (.inr (.inl rfl))
    have machine := ie machineMode (.inr (.inr rfl))
    exact ⟨pc.trans ih.1, prv.trans ih.2.1, user.trans ih.2.2.1, supervisor.trans ih.2.2.2.1,
      machine.trans ih.2.2.2.2⟩

def userCode : Iss .rv64 Flat := { everywhere 0x13 with prv := userMode, pc := 0x1000 }

/-- A supervisor handler that is itself interrupted by a machine-mode handler. -/
theorem twice_interrupted_restores : Interrupted Flat.platform userCode
      (returned supervisorMode (returned machineMode
        (entered Flat.platform machineMode (entered Flat.platform supervisorMode userCode)))) ∧
    (returned supervisorMode (returned machineMode
      (entered Flat.platform machineMode (entered Flat.platform supervisorMode userCode)))).pc =
        0x1000 := by
  have supervisor : KnownLevel supervisorMode := .inr (.inl rfl)
  have machine : KnownLevel machineMode := .inr (.inr rfl)
  have inner : Handling Flat.platform supervisorMode (entered Flat.platform supervisorMode userCode)
      (returned machineMode
        (entered Flat.platform machineMode (entered Flat.platform supervisorMode userCode))) :=
    .trap machine (by decide) (run_switchToTrapHandler _ _ machine)
      (.quiet ⟨rfl, rfl, fun _ => rfl⟩) (run_returnFromTrapHandler _ machine)
  have outer := Interrupted.trap (.start userCode) supervisor (by decide)
    (run_switchToTrapHandler userCode _ supervisor) inner (run_returnFromTrapHandler _ supervisor)
  exact ⟨outer, (interrupted_restores outer).1⟩

end Nest

end RiscvVp.Iss
