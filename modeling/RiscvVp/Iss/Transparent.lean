/-
# RiscvVp.Iss.Transparent -- a debugger in between

The breakpoints, the debug mode, the status and whether WFI waits are all that the debugger changes, and
but for WFI `run_step` looks at them only to stop.  So a program that is debugged is the program that is not,
on a core where WFI waits or not as the debugger has set it.  `ISS::run` in debug mode stops where the program
first is at a breakpoint, be it where it starts, or stops itself.
-/
import RiscvVp.Iss.AlikeStep

namespace RiscvVp

set_option autoImplicit false

open Lib

variable {isa : Isa} {World : Type}

/-- Nothing is different but what the debugger has set. -/
def Veil.debugging (isa : Isa) (status : CoreExecStatus → CoreExecStatus → Prop)
    (same : ∀ x, status x x) (breakpoints : List (Word isa)) (debugMode : Bool) : Veil isa where
  secret _ := False
  stored _ := False.elim
  status := status
  same := same
  breakpoints := breakpoints
  debugMode := debugMode

namespace Iss

/-- The core as the debugger left it. -/
def debugged (breakpoints : List (Word isa)) (debugMode : Bool) (s : Iss isa World) : Iss isa World :=
  { s with breakpoints := breakpoints, debugMode := debugMode }

/-- Without a debugger. -/
def plain (s : Iss isa World) : Iss isa World := s.debugged [] false

section Veil

variable {status : CoreExecStatus → CoreExecStatus → Prop} {same : ∀ x, status x x}
  {breakpoints : List (Word isa)} {debugMode : Bool} {s s' t : Iss isa World} {plat : Platform World}

theorem alike_debugging : Alike (Veil.debugging isa status same breakpoints debugMode) s s' ↔
    status s.status s'.status ∧ s' = { s.debugged breakpoints debugMode with status := s'.status } := by
  constructor
  · rintro ⟨status', reg, may, table, rfl⟩
    have here : reg = s.csrs.reg := funext fun c => table c id
    subst here
    exact ⟨may, rfl⟩
  · rintro ⟨may, here⟩
    exact ⟨s'.status, s.csrs.reg, may, fun _ _ => rfl, here⟩

/-- A step that no breakpoint stops. -/
theorem runStep_debugging (alike : Alike (Veil.debugging isa status same breakpoints debugMode) s s')
    (going : ¬ Stopped s) (going' : ¬ Stopped s') :
    BlindAt (Alike (Veil.debugging isa status same breakpoints debugMode)) (runStep plat) s s' :=
  blindAt_runStep plat alike (fun _ _ _ => False.elim) ⟨fun _ => id, fun _ => id⟩
    (iff_of_false going going')

/-- A step leaves the debugger's part alone: the core is alike to itself. -/
theorem runStep_debugger (ran : (runStep plat).run s = (.ok (), t)) :
    t = t.debugged s.breakpoints s.debugMode := by
  rcases runStep_ok ran with ⟨-, rfl⟩ | ⟨going, -⟩
  · rfl
  · have itself : Alike (Veil.debugging isa Eq Eq.refl s.breakpoints s.debugMode) s s :=
      alike_debugging.mpr ⟨rfl, rfl⟩
    have same : BlindAt _ (runStep plat) s s := runStep_debugging itself going going
    have after := same.2
    rw [ran] at after
    exact (alike_debugging.mp after).2

theorem not_stopped_plain : ¬ Stopped s.plain := fun stopped => Bool.false_ne_true stopped.1

/-- Without a debugger a core stays so. -/
theorem plain_of_step (by_itself : s = s.plain) (ran : (runStep plat).run s = (.ok (), t)) :
    t = t.plain := by
  have kept := runStep_debugger ran
  rw [by_itself] at kept
  exact kept

end Veil

/-! ## Debugging does not show -/

variable {plat : Platform World} {s t : Iss isa World}

/-- WFIs, with a breakpoint on the second one, and a debugger that does not let them wait. -/
def watched : Iss .rv64 Flat :=
  { everywhere 0x10500073 with breakpoints := [4], debugMode := true, ignoreWfi := true }

/-- The core after two steps, the second of which the breakpoint stops. -/
def halted : Iss .rv64 Flat := ((runStep Flat.platform).run ((runStep Flat.platform).run watched).2).2

/-- `run`, if its loop ends within `n` turns. -/
def run (plat : Platform World) : Nat → Iss isa World → Option (Iss isa World)
  | 0, _ => none
  | n + 1, s => ((runStep plat).next s).bind fun t => if t.status = .runnable then run plat n t else some t

theorem next_stopped (zero : s.regs 0 = 0) (stopped : Stopped s) :
    (runStep plat).next s = some { s with status := .hitBreakpoint } := by
  have here : (s.debugMode && decide (s.pc ∈ s.breakpoints)) = true := by simpa [Stopped] using stopped
  refine Exec.next_eq_some.mpr ?_
  unfold runStep
  rw [Exec.run_read_bind, run_assert_bind s zero, if_pos here]
  rfl

/-- A turn that no breakpoint stops is one of the core alone. -/
theorem next_going (going : ¬ Stopped s) :
    (runStep plat).next s =
      ((runStep plat).next s.plain).map (debugged s.breakpoints s.debugMode) := by
  have alike : Alike (Veil.debugging isa Eq Eq.refl s.breakpoints s.debugMode) s.plain s :=
    alike_debugging.mpr ⟨rfl, rfl⟩
  have same : BlindAt _ (runStep plat) s.plain s := runStep_debugging alike not_stopped_plain going
  obtain ⟨result, after⟩ := same
  obtain ⟨status, after⟩ := alike_debugging.mp after
  unfold Exec.next
  cases ran : (runStep plat).run s.plain with
  | mk r u =>
    cases ran' : (runStep plat).run s with
    | mk r' u' =>
      rw [ran, ran'] at result status after
      cases result
      cases r with
      | error e => rfl
      | ok _ =>
        rw [← status] at after
        exact congrArg some after

theorem still_performance : Sat (Still plat) (performanceAndSyncUpdate plat : IssM isa World Unit) := by
  have counter := fun n => @Locks.counter isa World plat (Still plat) _ n
  have cycles : Sat (Still plat) (Exec.update fun s : Iss isa World =>
      { s with cycleCounter := s.cycleCounter + instrCycles s.op }) :=
    still_update plat fun _ => ⟨rfl, rfl, rfl, rfl, rfl, rfl⟩
  unfold performanceAndSyncUpdate
  infer_instance

/-- A step leaves zero in `x0`. -/
theorem zero_of_next (ran : (runStep plat).next s = some t) (going : ¬ Stopped s) : t.regs 0 = 0 := by
  rcases runStep_ok (Exec.next_eq_some.mp ran) with ⟨stopped, -⟩ | ⟨-, u, status, -, last⟩
  · exact absurd stopped going
  · have kept : Still plat { u.setReg 0 0 with status := status } none t := still_performance.ok last
    rw [kept.regs]
    rfl

/-- `n` steps of the program alone, none of them from a breakpoint; it goes on after each. -/
inductive Passes (plat : Platform World) (breakpoints : List (Word isa)) :
    Nat → Iss isa World → Iss isa World → Prop where
  | start {s : Iss isa World} : Passes plat breakpoints 0 s s
  | step {n : Nat} {s t u : Iss isa World} : s.pc ∉ breakpoints → (runStep plat).next s = some t →
      t.status = .runnable → Passes plat breakpoints n t u → Passes plat breakpoints (n + 1) s u

/-- The program has come to a breakpoint, or its next step ends it: a system call, or `EBREAK`. -/
def Halts (plat : Platform World) (breakpoints : List (Word isa)) (s t : Iss isa World) : Prop :=
  s.pc ∈ breakpoints ∧ t = { s.debugged breakpoints true with status := .hitBreakpoint } ∨
    s.pc ∉ breakpoints ∧ ∃ u, (runStep plat).next s = some u ∧ u.status ≠ .runnable ∧
      t = u.debugged breakpoints true

theorem debugged_plain (debugMode : s.debugMode = true) : s.plain.debugged s.breakpoints true = s := by
  rw [← debugMode]
  rfl

/-- A turn of `run` away from the breakpoints. -/
theorem next_on (debugMode : s.debugMode = true) (going : s.pc ∉ s.breakpoints) :
    (runStep plat).next s = ((runStep plat).next s.plain).map (debugged s.breakpoints true) := by
  rw [← debugMode]
  exact next_going fun stopped => going stopped.2

/-- The core alone after such a turn, and the debugged one. -/
theorem after_turn {u w : Iss isa World} (first : (runStep plat).next s.plain = some w)
    (debugMode : s.debugMode = true) (going : s.pc ∉ s.breakpoints)
    (shown : u = w.debugged s.breakpoints true) :
    u.plain = w ∧ u.debugMode = true ∧ u.breakpoints = s.breakpoints ∧ u.regs 0 = 0 := by
  have turned : (runStep plat).next s = _ := next_on debugMode going
  rw [first] at turned
  have zero := zero_of_next turned fun stopped => going stopped.2
  subst shown
  exact ⟨(plain_of_step rfl (Exec.next_eq_some.mp first)).symm, rfl, rfl, zero⟩

theorem halts_of_run {k : Nat} (debugMode : s.debugMode = true) (ran : run plat k s = some t) :
    ∃ n u, Passes plat s.breakpoints n s.plain u ∧ Halts plat s.breakpoints u t := by
  induction k generalizing s with
  | zero => cases ran
  | succ k ih =>
    obtain ⟨u, turned, rest⟩ := Option.bind_eq_some_iff.mp ran
    by_cases here : s.pc ∈ s.breakpoints
    · rcases runStep_ok (Exec.next_eq_some.mp turned) with ⟨-, rfl⟩ | ⟨going, -⟩
      · cases rest
        refine ⟨0, s.plain, .start, .inl ⟨here, ?_⟩⟩
        rw [debugged_plain debugMode]
      · exact absurd ⟨debugMode, here⟩ going
    · have mapped := turned
      rw [next_on debugMode here] at mapped
      obtain ⟨w, first, shown⟩ := Option.map_eq_some_iff.mp mapped
      obtain ⟨by_itself, debugMode', same, -⟩ := after_turn first debugMode here shown.symm
      split at rest
      case isTrue runnable =>
        obtain ⟨n, x, passes, halts⟩ := ih debugMode' rest
        rw [by_itself, same] at passes
        exact ⟨n + 1, x, .step here first (by rw [← by_itself]; exact runnable) passes, same ▸ halts⟩
      case isFalse halted =>
        cases rest
        refine ⟨0, s.plain, .start, .inr ⟨here, w, first, ?_, shown.symm⟩⟩
        rw [← by_itself]
        exact halted

theorem run_of_passes {n : Nat} {a u : Iss isa World} (passes : Passes plat s.breakpoints n a u)
    (by_itself : s.plain = a) (debugMode : s.debugMode = true) (zero : s.regs 0 = 0)
    (halts : Halts plat s.breakpoints u t) : run plat (n + 1) s = some t := by
  obtain ⟨breakpoints, same⟩ : ∃ breakpoints, s.breakpoints = breakpoints := ⟨_, rfl⟩
  rw [same] at passes halts
  induction passes generalizing s with
  | @start a =>
    subst by_itself same
    rcases halts with ⟨here, rfl⟩ | ⟨going, w, first, halted, rfl⟩
    · refine Option.bind_eq_some_iff.mpr ⟨_, next_stopped zero ⟨debugMode, here⟩, ?_⟩
      rw [if_neg nofun, debugged_plain debugMode]
    · refine Option.bind_eq_some_iff.mpr ⟨w.debugged s.breakpoints true, ?_, if_neg halted⟩
      rw [next_on debugMode going, first]
      rfl
  | step going first runnable _ ih =>
    subst by_itself same
    obtain ⟨by_itself, debugMode', same, zero'⟩ := after_turn first debugMode going rfl
    refine Option.bind_eq_some_iff.mpr ⟨_, ?_, (if_pos ?_).trans (ih by_itself debugMode' zero' halts same)⟩
    · rw [next_on debugMode going, first]
      rfl
    · exact runnable

/-- `run` in debug mode returns exactly where the program that nobody debugs first is at one of the breakpoints,
or ends, and leaves the core as the program has it there.  It goes nowhere from a breakpoint. -/
theorem run_stops_iff (debugMode : s.debugMode = true) (zero : s.regs 0 = 0) :
    (∃ k, run plat k s = some t) ↔
      ∃ n u, Passes plat s.breakpoints n s.plain u ∧ Halts plat s.breakpoints u t := by
  constructor
  · rintro ⟨k, ran⟩
    exact halts_of_run debugMode ran
  · rintro ⟨n, u, passes, halts⟩
    exact ⟨n + 1, run_of_passes passes rfl debugMode zero halts⟩

theorem run_stops_watched : ∃ n u, Passes Flat.platform [4] n watched.plain u ∧
    Halts Flat.platform [4] u halted := by
  have ran : run Flat.platform 2 watched = some halted := rfl
  exact (run_stops_iff rfl rfl).mp ⟨2, ran⟩

end Iss

end RiscvVp
