/-
# RiscvVp.Lib.Triple -- what a machine reaches

A machine is a step that stops where it answers `none`.  `Triple step P Q` says that finitely many
steps lead from every state of `P` to one of `Q`: total correctness, since the machine has no other
choice.  The rules are those of straight lines and of loops with a variant, and a simulation
carries a triple from one machine to another.
-/
import Mathlib.Logic.Basic
import RiscvVp.Lib.Exec

namespace RiscvVp.Lib

set_option autoImplicit false

variable {σ τ ι : Type}

/-- `n` steps, one after the other. -/
def steps (step : σ → Option σ) : Nat → σ → Option σ
  | 0, s => some s
  | n + 1, s => (step s).bind (steps step n)

section Steps

variable {step : σ → Option σ} {s t u : σ} {m n : Nat}

@[simp] theorem steps_zero : steps step 0 s = some s := rfl

theorem steps_succ (first : step s = some t) : steps step (n + 1) s = steps step n t := by
  simp [steps, first]

theorem steps_one (first : step s = some t) : steps step 1 s = some t := steps_succ first

theorem steps_append (first : steps step m s = some t) (rest : steps step n t = some u) :
    steps step (m + n) s = some u := by
  induction m generalizing s with
  | zero =>
    cases first
    rwa [Nat.zero_add]
  | succ m ih =>
    obtain ⟨v, here, later⟩ := Option.bind_eq_some_iff.mp first
    rw [Nat.add_right_comm, steps_succ here]
    exact ih later

/-- The steps are counted from the first one or from the last one. -/
theorem steps_last (first : steps step n s = some t) (last : step t = some u) :
    steps step (n + 1) s = some u := steps_append first (steps_one last)

end Steps

/-- A computation as a step: on to the state in which it returns. -/
def Exec.next {ε : Type} (m : Exec σ ε Unit) (s : σ) : Option σ :=
  match m.run s with
  | (.ok _, t) => some t
  | (.error _, _) => none

theorem Exec.next_eq_some {ε : Type} {m : Exec σ ε Unit} {s t : σ} :
    m.next s = some t ↔ m.run s = (.ok (), t) := by
  unfold Exec.next
  split
  case h_1 ran =>
    rw [ran]
    simp
  case h_2 ran =>
    rw [ran]
    simp

/-! ## Triples -/

/-- From every state of `P` the machine comes to one of `Q`. -/
def Triple (step : σ → Option σ) (P Q : σ → Prop) : Prop :=
  ∀ ⦃s⦄, P s → ∃ n t, steps step n s = some t ∧ Q t

namespace Triple

variable {step : σ → Option σ} {P P' Q Q' R : σ → Prop}

/-- No step at all. -/
theorem skip (here : ∀ s, P s → Q s) : Triple step P Q := by
  intro s holds
  exact ⟨0, s, rfl, here s holds⟩

theorem single (moves : ∀ s, P s → ∃ t, step s = some t ∧ Q t) : Triple step P Q := by
  intro s holds
  obtain ⟨t, moved, after⟩ := moves s holds
  exact ⟨1, t, steps_one moved, after⟩

theorem seq (first : Triple step P Q) (second : Triple step Q R) : Triple step P R := by
  intro s holds
  obtain ⟨m, t, ran, between⟩ := first holds
  obtain ⟨n, u, ran', after⟩ := second between
  exact ⟨m + n, u, steps_append ran ran', after⟩

theorem weaken (triple : Triple step P Q) (pre : ∀ s, P' s → P s) (post : ∀ s, Q s → Q' s) :
    Triple step P' Q' := by
  intro s holds
  obtain ⟨n, t, ran, after⟩ := triple (pre s holds)
  exact ⟨n, t, ran, post t after⟩

/-- A step, and what comes after it. -/
theorem cons (moves : ∀ s, P s → ∃ t, step s = some t ∧ Q t) (rest : Triple step Q R) :
    Triple step P R := (single moves).seq rest

/-- A logical variable of the precondition. -/
theorem any {F : ι → σ → Prop} (triple : ∀ i, Triple step (F i) R) :
    Triple step (fun s => ∃ i, F i s) R := by
  intro s holds
  obtain ⟨i, here⟩ := holds
  exact triple i here

/-- A loop with the invariant `P`: each round ends it or makes the variant smaller. -/
theorem loop (variant : σ → Nat)
    (round : ∀ n, Triple step (fun s => P s ∧ variant s = n)
      (fun s => R s ∨ P s ∧ variant s < n)) : Triple step P R := by
  intro s holds
  induction size : variant s using Nat.strongRecOn generalizing s with
  | ind n ih =>
    obtain ⟨k, t, ran, done | ⟨again, smaller⟩⟩ := round n ⟨holds, size⟩
    · exact ⟨k, t, ran, done⟩
    · obtain ⟨l, u, ran', after⟩ := ih (variant t) smaller again rfl
      exact ⟨k + l, u, steps_append ran ran', after⟩

end Triple

/-! ## Simulations -/

/-- What the machine `step` does, `step'` does in lockstep on states that `R` relates to its own. -/
def Simulates (R : τ → σ → Prop) (step' : τ → Option τ) (step : σ → Option σ) : Prop :=
  ∀ ⦃c s s'⦄, R c s → step s = some s' → ∃ c', step' c = some c' ∧ R c' s'

namespace Simulates

variable {R : τ → σ → Prop} {step' : τ → Option τ} {step : σ → Option σ}

theorem run (simulates : Simulates R step' step) {n : Nat} {c : τ} {s s' : σ} (related : R c s)
    (ran : steps step n s = some s') : ∃ c', steps step' n c = some c' ∧ R c' s' := by
  induction n generalizing c s with
  | zero =>
    cases ran
    exact ⟨c, rfl, related⟩
  | succ n ih =>
    obtain ⟨t, moved, rest⟩ := Option.bind_eq_some_iff.mp ran
    obtain ⟨d, moved', next⟩ := simulates related moved
    obtain ⟨c', ran', last⟩ := ih next rest
    exact ⟨c', (steps_succ moved').trans ran', last⟩

/-- What was proved of the one machine holds of the other, seen through the relation. -/
theorem triple (simulates : Simulates R step' step) {P Q : σ → Prop} (holds : Triple step P Q) :
    Triple step' (fun c => ∃ s, R c s ∧ P s) (fun c => ∃ s, R c s ∧ Q s) := by
  intro c start
  obtain ⟨s, related, pre⟩ := start
  obtain ⟨n, t, ran, post⟩ := holds pre
  obtain ⟨d, ran', related'⟩ := simulates.run related ran
  exact ⟨n, d, ran', t, related', post⟩

end Simulates

/-! ## Schedules -/

section Schedules

variable {step' : ι → τ → Option τ} {step : ι → σ → Option σ} {R : τ → σ → Prop}

/-- The processes take turns as the schedule says. -/
def turns (step : ι → σ → Option σ) : List ι → σ → Option σ
  | [], s => some s
  | i :: is, s => (step i s).bind (turns step is)

theorem turns_cons {i : ι} {is : List ι} {s t : σ} (first : step i s = some t) :
    turns step (i :: is) s = turns step is t := by
  simp [turns, first]

/-- Processes that simulate others one by one do so in every schedule. -/
theorem Simulates.turns (simulates : ∀ i, Simulates R (step' i) (step i)) {is : List ι} {c : τ}
    {s s' : σ} (related : R c s) (ran : turns step is s = some s') :
    ∃ c', Lib.turns step' is c = some c' ∧ R c' s' := by
  induction is generalizing c s with
  | nil =>
    cases ran
    exact ⟨c, rfl, related⟩
  | cons i is ih =>
    obtain ⟨t, moved, rest⟩ := Option.bind_eq_some_iff.mp ran
    obtain ⟨d, moved', next⟩ := simulates i related moved
    obtain ⟨c', ran', last⟩ := ih next rest
    exact ⟨c', (turns_cons moved').trans ran', last⟩

/-- A process that is done leaves its turns out. -/
def skipping (done : ι → σ → Prop) [∀ i s, Decidable (done i s)] (step : ι → σ → Option σ) (i : ι) (s : σ) :
    Option σ := if done i s then some s else step i s

theorem Simulates.skipping {done' : ι → τ → Prop} {done : ι → σ → Prop} [∀ i c, Decidable (done' i c)]
    [∀ i s, Decidable (done i s)] {i : ι} (simulates : Simulates R (step' i) (step i))
    (agree : ∀ {c s}, R c s → (done' i c ↔ done i s)) :
    Simulates R (Lib.skipping done' step' i) (Lib.skipping done step i) := by
  intro c s s' related stepped
  unfold Lib.skipping at *
  by_cases stops : done i s
  · rw [if_pos stops] at stepped
    cases stepped
    exact ⟨c, if_pos ((agree related).mpr stops), related⟩
  · rw [if_neg stops] at stepped
    obtain ⟨c', moved, related'⟩ := simulates related stepped
    exact ⟨c', (if_neg (mt (agree related).mp stops)).trans moved, related'⟩

end Schedules

end RiscvVp.Lib
