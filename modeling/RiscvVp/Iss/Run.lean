/-
# RiscvVp.Iss.Run -- runs of a core

A run repeats `run_step`; between two steps a debugger may change what concerns it (the
status, the breakpoints, the debug mode, and whether WFI waits).  `Run plat allowed` has only steps from states
that are `allowed`, and a state is `Reachable` if a run leads there from reset.
-/
import RiscvVp.Iss.Instructions
import RiscvVp.Iss.Step

namespace RiscvVp

set_option autoImplicit false

open Lib Transition

/-- What the decoder makes of a fetched word. -/
def Instruction.decoded (isa : Isa) (word : Instruction) : Option (Mapping × Instruction) :=
  if word.isCompressed then
    match word.decodeAndExpandCompressed isa.arch with
    | .ok (op, expanded) => some (op, expanded)
    | .error _ => none
  else some (word.decodeNormal isa.arch, word)

/-- The bytes that an instruction takes. -/
def Instruction.size (isa : Isa) (word : Instruction) : Word isa :=
  if word.isCompressed then 2 else 4

namespace Iss

variable {isa : Isa} {World : Type}

/-! ## Runs -/

inductive Run (plat : Platform World) (allowed : Iss isa World → Prop) (s : Iss isa World) :
    Iss isa World → Prop where
  | start : Run plat allowed s s
  | step {t u : Iss isa World} : Run plat allowed s t → allowed t →
      (runStep plat).run t = (.ok (), u) → Run plat allowed s u
  | debug {t : Iss isa World} (status : CoreExecStatus) (breakpoints : List (Word isa))
      (debugMode ignoreWfi : Bool) : Run plat allowed s t →
      Run plat allowed s { t with
        status := status, breakpoints := breakpoints, debugMode := debugMode, ignoreWfi := ignoreWfi }

/-- On to where a step that returns leads. -/
theorem Run.next {plat : Platform World} {allowed : Iss isa World → Prop} {s t : Iss isa World}
    (run : Run plat allowed s t) (fine : allowed t) (returns : ((runStep plat).run t).1 = .ok ()) :
    Run plat allowed s ((runStep plat).run t).2 := run.step fine (Prod.ext returns rfl)

/-- Reached from reset by steps that are `allowed`. -/
def ReachableBy (plat : Platform World) (allowed : Iss isa World → Prop) (t : Iss isa World) :
    Prop :=
  ∃ hart useEBaseIsa entrypoint sp world ignoreWfi, Run plat allowed
    { reset hart useEBaseIsa entrypoint sp world with ignoreWfi := ignoreWfi } t

def Reachable (plat : Platform World) (t : Iss isa World) : Prop := ReachableBy plat (fun _ => True) t

/-- What reset establishes and every step and the debugger keep. -/
theorem Run.invariant {plat : Platform World} {allowed Inv : Iss isa World → Prop}
    (step : ∀ {s t}, Inv s → allowed s → (runStep plat).run s = (.ok (), t) → Inv t)
    (debug : ∀ {s} status breakpoints debugMode ignoreWfi, Inv s → Inv { s with
      status := status, breakpoints := breakpoints, debugMode := debugMode, ignoreWfi := ignoreWfi })
    {s t : Iss isa World} (start : Inv s) (run : Run plat allowed s t) : Inv t := by
  induction run with
  | start => exact start
  | step _ permitted ran ih => exact step ih permitted ran
  | debug status breakpoints debugMode ignoreWfi _ ih => exact debug status breakpoints debugMode ignoreWfi ih

theorem ReachableBy.invariant {plat : Platform World} {allowed Inv : Iss isa World → Prop}
    (start : ∀ hart useEBaseIsa entrypoint sp world ignoreWfi,
      Inv { reset hart useEBaseIsa entrypoint sp world with ignoreWfi := ignoreWfi })
    (step : ∀ {s t}, Inv s → allowed s → (runStep plat).run s = (.ok (), t) → Inv t)
    (debug : ∀ {s} status breakpoints debugMode ignoreWfi, Inv s → Inv { s with
      status := status, breakpoints := breakpoints, debugMode := debugMode, ignoreWfi := ignoreWfi })
    {t : Iss isa World} (reached : ReachableBy plat allowed t) : Inv t := by
  obtain ⟨hart, useEBaseIsa, entrypoint, sp, world, ignoreWfi, run⟩ := reached
  exact run.invariant step debug (start hart useEBaseIsa entrypoint sp world ignoreWfi)

/-! ## The instruction of a step -/

/-- The instruction that lies at the program counter. -/
def nextInstr (plat : Platform World) (s : Iss isa World) : Option (Mapping × Instruction) :=
  match (loadInstr plat (s.pc.setWidth 64)).run s with
  | (.ok word, _) => Instruction.decoded isa word
  | (.error _, _) => none

def nextOp (plat : Platform World) (s : Iss isa World) : Option Mapping :=
  (nextInstr plat s).map Prod.fst

theorem assert_ok {condition : Prop} [Decidable condition] {cause : Abort} {s t : Iss isa World}
    (ran : (assert condition cause).run s = (.ok (), t)) : condition ∧ t = s := by
  unfold assert at ran
  split at ran
  · rename_i holds
    cases ran
    exact ⟨holds, rfl⟩
  · cases ran

section Step

variable {plat : Platform World} {s t : Iss isa World}

/-- A word that is none ends the simulation, and the registers are as before. -/
theorem run_decode_none (unknown : s.instr.decoded isa = none) :
    decode.run s = (.error (.abort .decode), s) := by
  unfold Instruction.decoded at unknown
  unfold decode
  rw [Exec.run_read_bind, Exec.run_read_bind]
  by_cases short : s.instr.isCompressed = true
  · rw [if_pos short] at unknown ⊢
    cases answered : s.instr.decodeAndExpandCompressed isa.arch with
    | error _ => rfl
    | ok result =>
      rw [answered] at unknown
      cases unknown
  · rw [if_neg short] at unknown
    cases unknown

/-- The decoder fills the two registers and moves the program counter behind the word, and then
asks for the extension. -/
theorem run_decode_some {op : Mapping} {instr : Instruction}
    (known : s.instr.decoded isa = some (op, instr)) :
    decode.run s = (if s.instr.isCompressed = true ∧ op ≠ .undef then requireIsa (Misa.C isa)
      else pure () : IssM isa World Unit).run
        { s with instr := instr, op := op, pc := s.pc + s.instr.size isa } := by
  unfold Instruction.decoded at known
  unfold decode Instruction.size
  rw [Exec.run_read_bind, Exec.run_read_bind]
  by_cases short : s.instr.isCompressed = true
  · rw [if_pos short] at known
    simp only [short, true_and, if_true]
    cases answered : s.instr.decodeAndExpandCompressed isa.arch with
    | error _ =>
      rw [answered] at known
      cases known
    | ok result =>
      rw [answered] at known
      cases known
      rfl
  · rw [if_neg short] at known
    cases known
    simp only [short]
    rfl

/-- A compressed instruction has to be enabled. -/
theorem decode_eq_ok {u : Iss isa World} : decode.run s = (.ok (), u) ↔
    ∃ op instr, s.instr.decoded isa = some (op, instr) ∧
      (s.instr.isCompressed = true → op ≠ .undef → Extends (Misa.C isa) s) ∧
      u = { s with instr := instr, op := op, pc := s.pc + s.instr.size isa } := by
  cases known : s.instr.decoded isa with
  | none =>
    rw [run_decode_none known]
    simp
  | some result =>
    obtain ⟨op, instr⟩ := result
    rw [run_decode_some known]
    by_cases asks : s.instr.isCompressed = true ∧ op ≠ .undef
    · rw [if_pos asks]
      by_cases enabled : Extends (Misa.C isa)
          { s with instr := instr, op := op, pc := s.pc + s.instr.size isa }
      · rw [run_requireIsa_present enabled]
        constructor
        · intro ran
          cases ran
          exact ⟨op, instr, rfl, fun _ _ => enabled, rfl⟩
        · rintro ⟨_, _, same, -, rfl⟩
          cases same
          rfl
      · rw [run_requireIsa_missing enabled]
        constructor
        · intro ran
          cases ran
        · rintro ⟨_, _, same, present, -⟩
          cases same
          exact absurd (present asks.1 asks.2) enabled
    · rw [if_neg asks]
      constructor
      · intro ran
        cases ran
        exact ⟨op, instr, rfl, fun short named => absurd ⟨short, named⟩ asks, rfl⟩
      · rintro ⟨_, _, same, -, rfl⟩
        cases same
        rfl

theorem decode_decoded {u : Iss isa World} (ran : decode.run s = (.ok (), u)) :
    s.instr.decoded isa = some (u.op, u.instr) := by
  obtain ⟨op, instr, decoded, -, rfl⟩ := decode_eq_ok.mp ran
  exact decoded

/-- A fetch that returns has put the word in the instruction register. -/
theorem fetch_eq_ok {u : Iss isa World} : (fetch plat).run s = (.ok (), u) ↔
    ∃ word v, (loadInstr plat (s.pc.setWidth 64)).run s = (.ok word, v) ∧
      u = { v with instr := word } := by
  unfold fetch
  rw [Exec.run_read_bind]
  constructor
  · intro ran
    obtain ⟨word, v, caught, put⟩ := Exec.run_bind_eq_ok.mp ran
    cases put
    cases loaded : (loadInstr plat (s.pc.setWidth 64)).run s with
    | mk result v' =>
      cases result with
      | error e =>
        rw [Exec.run_tryCatch_error loaded] at caught
        cases e <;> cases caught
      | ok word' =>
        rw [Exec.run_tryCatch_ok loaded] at caught
        cases caught
        exact ⟨_, _, rfl, rfl⟩
  · rintro ⟨word, v, loaded, rfl⟩
    exact Exec.run_bind_eq_ok.mpr ⟨word, v, Exec.run_tryCatch_ok loaded, rfl⟩

/-- What was fetched and decoded is what lies at the program counter. -/
theorem nextInstr_of_decoded {u : Iss isa World}
    (ran : (do fetch plat; decode : IssM isa World Unit).run s = (.ok (), u)) :
    nextInstr plat s = some (u.op, u.instr) := by
  obtain ⟨_, v, fetched, decoded⟩ := Exec.run_bind_eq_ok.mp ran
  obtain ⟨word, w, loaded, rfl⟩ := fetch_eq_ok.mp fetched
  unfold nextInstr
  rw [loaded]
  exact decode_decoded decoded

/-- A step is the fetch, the decoding and the instruction. -/
theorem execStep_ok (ran : (execStep plat).run s = (.ok (), t)) :
    ∃ u, (do fetch plat; decode : IssM isa World Unit).run s = (.ok (), u) ∧
      (exec u.instr plat u.op).run u = (.ok (), t) := by
  unfold execStep at ran
  rw [Exec.run_read_bind] at ran
  obtain ⟨_, s', asserted, body⟩ := Exec.run_bind_eq_ok.mp ran
  obtain ⟨-, rfl⟩ := assert_ok asserted
  obtain ⟨_, v, fetched, rest⟩ := Exec.run_bind_eq_ok.mp body
  obtain ⟨_, u, decoded, executed⟩ := Exec.run_bind_eq_ok.mp rest
  rw [Exec.run_read_bind, Exec.run_read_bind] at executed
  exact ⟨u, Exec.run_bind_eq_ok.mpr ⟨(), v, fetched, decoded⟩, executed⟩

/-- A step is judged by what follows the fetch. -/
theorem satAt_execStep_fetched {R : Transition (Iss isa World) Exc} [Notes R]
    (fetched : Sat R (fetch plat))
    (rest : ∀ v, (fetch plat).run s = (.ok (), v) → SatAt R (do
      decode
      exec (← Exec.read instr) plat (← Exec.read op)) v) : SatAt R (execStep plat) s := by
  unfold execStep
  refine .bind (.of_sat inferInstance) fun _ t read => ?_
  cases read
  refine .bind (satAt_assert R id) fun _ u checked => ?_
  obtain ⟨-, rfl⟩ := assert_ok checked
  exact .bind (.of_sat fetched) fun _ v fetched => rest v fetched

/-- A step is judged by its instruction, once it is fetched and decoded. -/
theorem satAt_execStep {R : Transition (Iss isa World) Exc} [Checks R] (fetched : Sat R (fetch plat))
    (instruction : ∀ u, Still plat s none u →
      (do fetch plat; decode : IssM isa World Unit).run s = (.ok (), u) →
      SatAt R (exec u.instr plat u.op) u) : SatAt R (execStep plat) s := by
  refine satAt_execStep_fetched fetched fun v fetched => ?_
  refine .bind (.of_sat inferInstance) fun _ w decoded => ?_
  have prepared : (do fetch plat; decode : IssM isa World Unit).run s = (.ok (), w) :=
    Exec.run_bind_eq_ok.mpr ⟨(), v, fetched, decoded⟩
  refine .bind (.of_sat inferInstance) fun instr _ read => ?_
  cases read
  refine .bind (.of_sat inferInstance) fun op _ read => ?_
  cases read
  exact instruction w (Sat.ok inferInstance prepared) prepared

end Step

/-- A core out of reset whose memory is one instruction, over and over. -/
def everywhere (word : BitVec 32) : Iss .rv64 Flat :=
  reset 0 false 0 0 ⟨repeating (word ++ word), 0, none⟩

/-! ## The parts of a step -/

/-- The core when `run_step` comes to `exec_step`. -/
def beforeExec (plat : Platform World) (s : Iss isa World) : Iss isa World :=
  ((do
    pollInterrupts plat
    Exec.update fun s => { s with lastPc := s.pc } : IssM isa World Unit).run s).2

/-- Everything of `run_step` but the instruction makes transitions of `R`. -/
structure StepParts (plat : Platform World) (R : Transition (Iss isa World) Exc) : Prop where
  poll : Sat R (pollInterrupts plat)
  lastPc : Sat R (Exec.update fun s => { s with lastPc := s.pc })
  check : ∀ (condition : Prop) [Decidable condition], Sat R (assert condition .zeroRegister)
  interrupt : ∀ {mode : PrivilegeLevel} (pending : Word isa), KnownLevel mode →
    Sat R (do prepareInterrupt mode pending; switchToTrapHandler plat mode : IssM isa World Unit)
  trap : ∀ {s e t}, R s (some (.trap e)) t →
    R s (failure ((takeTrap plat (.trap e)).run t).1) ((takeTrap plat (.trap e)).run t).2
  zero : Sat R (writeReg 0 0)
  status : ∀ status, Sat R (setStatus status)
  performance : Sat R (performanceAndSyncUpdate plat)

theorem computePendingInterrupts_known {s : Iss isa World} {mode : PrivilegeLevel}
    {pending : Word isa} (found : computePendingInterrupts s = some (mode, pending)) :
    KnownLevel mode := by
  unfold computePendingInterrupts at found
  dsimp only at found
  split at found
  · cases found
  split at found
  · cases found
    exact .inr (.inr rfl)
  split at found
  · cases found
    exact .inr (.inl rfl)
  split at found
  · cases found
    exact .inl rfl
  · cases found

/-- A step is judged by its instruction. -/
theorem StepParts.runStep {plat : Platform World} {R : Transition (Iss isa World) Exc} [Closed R]
    (parts : StepParts plat R) {s : Iss isa World}
    (instruction : SatAt R (execStep plat) (beforeExec plat s)) : SatAt R (runStep plat) s := by
  have := parts.poll
  have := parts.status
  have := parts.zero
  have := parts.performance
  unfold Iss.runStep
  refine .bind (.of_sat inferInstance) fun _ _ read => ?_
  cases read
  refine .bind (.of_sat (parts.check _)) fun _ t checked => ?_
  obtain ⟨-, rfl⟩ := assert_ok checked
  refine .ite (fun _ => .of_sat inferInstance) fun _ => ?_
  refine .bind (.of_sat parts.poll) fun _ u polled => ?_
  refine .bind (.of_sat parts.lastPc) fun _ v linked => ?_
  have reached : v = beforeExec plat t := by
    cases linked
    unfold beforeExec
    rw [Exec.run_bind_ok polled]
    rfl
  subst reached
  refine .bind (.tryCatch ?_ ?_) fun _ _ _ => .of_sat inferInstance
  · refine .bind instruction fun _ _ _ => .bind (.of_sat parts.poll) fun _ w _ => ?_
    refine .bind (.of_sat inferInstance) fun _ _ read => ?_
    cases read
    split
    · rename_i mode pending found
      exact .of_sat (parts.interrupt pending (computePendingInterrupts_known found))
    · exact .of_sat inferInstance
  · intro e w thrown
    cases e with
    | trap e => exact parts.trap thrown
    | abort cause => exact thrown
    | blocked => exact thrown

/-! ## A step, taken apart -/

/-- The step is one that the debugger stops before it does anything. -/
def Stopped (s : Iss isa World) : Prop := s.debugMode = true ∧ s.pc ∈ s.breakpoints

section Ok

variable {plat : Platform World} {s t : Iss isa World}

theorem runStep_ok (ran : (runStep plat).run s = (.ok (), t)) :
    Stopped s ∧ t = { s with status := .hitBreakpoint } ∨
      ¬ Stopped s ∧ ∃ u status,
        ((execAndInterrupt plat).tryCatch (takeTrap plat)).run (beforeExec plat s) = (.ok (), u) ∧
        (performanceAndSyncUpdate plat).run { u.setReg 0 0 with status := status } = (.ok (), t) := by
  unfold runStep at ran
  rw [Exec.run_read_bind] at ran
  obtain ⟨_, s', checked, ran⟩ := Exec.run_bind_eq_ok.mp ran
  obtain ⟨-, rfl⟩ := assert_ok checked
  split at ran
  case isTrue stopped =>
    cases ran
    refine .inl ⟨?_, rfl⟩
    simpa [Stopped] using stopped
  case isFalse going =>
    obtain ⟨_, u, polled, ran⟩ := Exec.run_bind_eq_ok.mp ran
    obtain ⟨_, v, linked, ran⟩ := Exec.run_bind_eq_ok.mp ran
    have reached : v = beforeExec plat s' := by
      cases linked
      unfold beforeExec
      rw [Exec.run_bind_ok polled]
      rfl
    subst reached
    obtain ⟨_, w, tried, ran⟩ := Exec.run_bind_eq_ok.mp ran
    obtain ⟨_, x, zeroed, ran⟩ := Exec.run_bind_eq_ok.mp ran
    cases zeroed
    rw [Exec.run_read_bind] at ran
    obtain ⟨_, y, exited, counted⟩ := Exec.run_bind_eq_ok.mp ran
    refine .inr ⟨by simpa [Stopped] using going, w, ?_⟩
    by_cases exits : (w.setReg (regIndex 0) 0).shallExit = true
    · rw [Exec.when_pos exits] at exited
      cases exited
      exact ⟨.terminated, tried, counted⟩
    · rw [Exec.when_neg exits] at exited
      cases exited
      exact ⟨_, tried, counted⟩

/-- The `try` block returns from the instruction, with or without an interrupt taken after it,
or from the handler of a trap. -/
theorem try_ok (ran : ((execAndInterrupt plat).tryCatch (takeTrap plat)).run s = (.ok (), t)) :
    ((execAndInterrupt plat).run s = (.ok (), t) ∧ ∃ u v,
      (execStep plat).run s = (.ok (), u) ∧ (pollInterrupts plat).run u = (.ok (), v) ∧
      (computePendingInterrupts v = none ∧ t = v ∨
        ∃ mode pending, computePendingInterrupts v = some (mode, pending) ∧
          (do prepareInterrupt mode pending; switchToTrapHandler plat mode).run v = (.ok (), t))) ∨
    ∃ e u, (execAndInterrupt plat).run s = (.error (.trap e), u) ∧
      (takeTrap plat (.trap e)).run u = (.ok (), t) := by
  cases body : (execAndInterrupt plat).run s with
  | mk result u =>
    cases result with
    | ok _ =>
      rw [Exec.run_tryCatch_ok body] at ran
      cases ran
      obtain ⟨_, v, executed, rest⟩ := Exec.run_bind_eq_ok.mp body
      obtain ⟨_, w, polled, rest⟩ := Exec.run_bind_eq_ok.mp rest
      rw [Exec.run_read_bind] at rest
      refine .inl ⟨rfl, v, w, executed, polled, ?_⟩
      cases pending : computePendingInterrupts w with
      | none =>
        rw [pending] at rest
        cases rest
        exact .inl ⟨rfl, rfl⟩
      | some found =>
        rw [pending] at rest
        exact .inr ⟨found.1, found.2, rfl, rest⟩
    | error e =>
      rw [Exec.run_tryCatch_error body] at ran
      cases e with
      | trap e => exact .inr ⟨e, u, rfl, ran⟩
      | abort _ => cases ran
      | blocked => cases ran

end Ok

end Iss

end RiscvVp
