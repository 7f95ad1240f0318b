/-
# RiscvVp.Iss.Isolation -- registers of a higher level

What the registers of a higher level hold does not show at a lower one: up to the trap that enters
the higher level, two cores that differ in these alone make the same steps.  `MRET` and `SRET` are
left out: this core executes them at every level, and they read such a register.
-/
import RiscvVp.Iss.Transparent

namespace RiscvVp

set_option autoImplicit false

open Lib

variable {isa : Isa} {World : Type}

/-- A register that only holds a value, and all of whose addresses ask for a level above `level`. -/
def Csr.Hidden (isa : Isa) (level : PrivilegeLevel) (c : Csr) : Prop :=
  c.stored = true ∧ ∀ a, registerMapping isa a = some (.reg c) → level < csrPrv a.addr

/-- The hidden registers are all that may be different. -/
def Veil.above (isa : Isa) (level : PrivilegeLevel) (breakpoints : List (Word isa)) (debugMode : Bool) :
    Veil isa where
  secret := Csr.Hidden isa level
  stored _ := And.left
  status := Eq
  same := Eq.refl
  breakpoints := breakpoints
  debugMode := debugMode

/-- ... and so they cannot be read. -/
theorem Veil.guarded_above {level prv : PrivilegeLevel} (below : prv ≤ level)
    (breakpoints : List (Word isa)) (debugMode : Bool) :
    (Veil.above isa level breakpoints debugMode).Guarded prv :=
  fun a _ mapped hidden => Nat.lt_of_le_of_lt below (hidden.2 a mapped)

namespace Iss

/-- Other values in the table. -/
def withTable (reg : Csr → Word isa) (s : Iss isa World) : Iss isa World :=
  { s with csrs := { s.csrs with reg := reg } }

/-- Only hidden registers have other values. -/
def Agree (level : PrivilegeLevel) (reg : Csr → Word isa) (s : Iss isa World) : Prop :=
  ∀ c, ¬ c.Hidden isa level → reg c = s.csrs.reg c

/-- The step is one of a program at the level or below, and no return by a hidden register. -/
structure Enclosed (plat : Platform World) (level : PrivilegeLevel) (s : Iss isa World) : Prop where
  below : s.prv ≤ level
  mret : nextOp plat (beforeExec plat s) = some .mret → ¬ Csr.mepc.Hidden isa level
  sret : nextOp plat (beforeExec plat s) = some .sret → ¬ Csr.sepc.Hidden isa level

variable {plat : Platform World} {level : PrivilegeLevel} {s t u : Iss isa World}

/-- One step, with the hidden registers as they are and with other values in them. -/
theorem confined_step (confined : Enclosed plat level s) {reg : Csr → Word isa}
    (agree : Agree level reg s) (stepped : (runStep plat).next s = some t) :
    ∃ reg', Agree level reg' t ∧ (runStep plat).next (s.withTable reg) = some (t.withTable reg') := by
  have ran := Exec.next_eq_some.mp stepped
  have alike : Alike (Veil.above isa level s.breakpoints s.debugMode) s (s.withTable reg) :=
    ⟨s.status, reg, rfl, agree, rfl⟩
  have guarded : (Veil.above isa level s.breakpoints s.debugMode).Guarded s.prv :=
    Veil.guarded_above confined.below _ _
  obtain ⟨returned, status, reg', same, agree', after⟩ :=
    blindAt_runStep plat alike guarded ⟨confined.mret, confined.sret⟩ Iff.rfl
  have kept := runStep_debugger ran
  rw [ran] at returned same agree' after
  subst same
  refine ⟨reg', agree', Exec.next_eq_some.mpr (Prod.ext returned.symm ?_)⟩
  rw [after]
  unfold withTable
  rw [kept]
  rfl

/-- Steps of a program that is confined to its level: with other values in the hidden registers they
lead to the same state, but for hidden registers. -/
theorem level_isolated {n : Nat} {reg : Csr → Word isa} (agree : Agree level reg s)
    (confined : ∀ i < n, ∀ u, steps (runStep plat).next i s = some u → Enclosed plat level u)
    (ran : steps (runStep plat).next n s = some t) : ∃ reg', Agree level reg' t ∧
      steps (runStep plat).next n (s.withTable reg) = some (t.withTable reg') := by
  induction n generalizing s reg with
  | zero =>
    cases ran
    exact ⟨reg, agree, rfl⟩
  | succ n ih =>
    obtain ⟨u, first, rest⟩ := Option.bind_eq_some_iff.mp ran
    obtain ⟨reg', agree', first'⟩ := confined_step (confined 0 (Nat.succ_pos n) s rfl) agree first
    obtain ⟨reg'', last, rest'⟩ := ih agree' (fun i below w reached =>
      confined (i + 1) (Nat.succ_lt_succ below) w ((steps_succ first).trans reached)) rest
    exact ⟨reg'', last, (steps_succ first').trans rest'⟩

/-- User code: `addi x1, x1, 1` and `sd x1, 64(x0)`, over and over. -/
def counter : Iss .rv64 Flat :=
  { reset 0 false 0 0 ⟨repeating (0x04103023#32 ++ 0x00108093#32), 0, none⟩ with prv := userMode }

/-- The table with another value in `mscratch`. -/
def otherScratch : Csr → Word .rv64 := fun c => if c = .mscratch then 0xFF else counter.csrs.reg c

theorem mscratch_hidden : Csr.mscratch.Hidden .rv64 userMode := by
  refine ⟨rfl, fun a mapped => ?_⟩
  cases a
  case mscratch => decide
  case pmpcfg i =>
    revert i
    decide
  all_goals cases mapped

/-- Behind the addition, and behind the store. -/
def counted : Iss .rv64 Flat := ((runStep Flat.platform).run counter).2

def counterStored : Iss .rv64 Flat := ((runStep Flat.platform).run counted).2

theorem next_counter : (runStep Flat.platform).next counter = some counted :=
  Exec.next_eq_some.mpr (Prod.ext (by decide) rfl)

theorem next_counted : (runStep Flat.platform).next counted = some counterStored :=
  Exec.next_eq_some.mpr (Prod.ext (by decide) rfl)

theorem level_isolated_user : ∃ reg, Agree userMode reg counterStored ∧
    (counterStored.world.bytes.read 64 8 : BitVec 64) = 1 ∧
    steps (runStep Flat.platform).next 2 (counter.withTable otherScratch) =
      some (counterStored.withTable reg) := by
  have agree : Agree userMode otherScratch counter := by
    intro c shown
    refine if_neg fun scratch => ?_
    subst scratch
    exact shown mscratch_hidden
  have confined : ∀ i < 2, ∀ u, steps (runStep Flat.platform).next i counter = some u →
      Enclosed Flat.platform userMode u := by
    intro i below u reached
    match i, below with
    | 0, _ =>
      cases reached
      exact ⟨by decide, fun isMret => absurd isMret (by decide), fun isSret => absurd isSret (by decide)⟩
    | 1, _ =>
      cases (steps_succ next_counter).symm.trans reached
      exact ⟨by decide, fun isMret => absurd isMret (by decide), fun isSret => absurd isSret (by decide)⟩
  have ran : steps (runStep Flat.platform).next 2 counter = some counterStored :=
    (steps_succ next_counter).trans (steps_succ next_counted)
  obtain ⟨reg, same, other⟩ := level_isolated agree confined ran
  exact ⟨reg, same, by decide, other⟩

end Iss

end RiscvVp
