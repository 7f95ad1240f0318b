/-
# RiscvVp.Lib.Runs -- runs of a machine that answers its inputs

A machine takes inputs one at a time.  It answers an input and goes on, or it fails and there
is no next state.  `Runs` are its runs with the inputs and the answers on record, where every
input was `allowed` in the state it came to; what holds at the start and is kept by a step
holds behind every run.
-/
import Mathlib.Data.List.Basic

namespace RiscvVp.Lib

set_option autoImplicit false

variable {σ α β ε : Type}

theorem ok_of_map {x : Except ε α} {f : α → β} {b : β} (ran : x.map f = .ok b) :
    ∃ a, x = .ok a ∧ f a = b := by
  cases x with
  | error e => cases ran
  | ok a => exact ⟨a, rfl, Except.ok.inj ran⟩

theorem ok_of_mapError {ε' : Type} {x : Except ε α} {f : ε → ε'} {a : α} (ran : x.mapError f = .ok a) :
    x = .ok a := by
  cases x with
  | error e => cases ran
  | ok b => exact congrArg Except.ok (Except.ok.inj ran)

theorem error_of_map {x : Except ε α} {f : α → β} {e : ε} (failed : x.map f = .error e) : x = .error e := by
  cases x with
  | error e => exact congrArg Except.error (Except.error.inj failed)
  | ok a => cases failed

theorem error_of_mapError {ε' : Type} {x : Except ε α} {f : ε → ε'} {e : ε'}
    (failed : x.mapError f = .error e) : ∃ e', x = .error e' ∧ f e' = e := by
  cases x with
  | error e => exact ⟨e, rfl, Except.error.inj failed⟩
  | ok a => cases failed

/-- Behind a check that was passed. -/
theorem ok_of_guard {check : Prop} [Decidable check] {x : Except ε α} {e : ε} {a : α}
    (ran : (if check then x else .error e) = .ok a) : check ∧ x = .ok a := by
  by_cases passed : check
  · rw [if_pos passed] at ran
    exact ⟨passed, ran⟩
  · rw [if_neg passed] at ran
    cases ran

/-- From `s` to the state at the end, with the log of inputs and answers. -/
inductive Runs (step : σ → α → Except ε (β × σ)) (allowed : σ → α → Prop) (s : σ) :
    List (α × β) → σ → Prop where
  | start : Runs step allowed s [] s
  | next {log : List (α × β)} {t u : σ} {a : α} {b : β} : Runs step allowed s log t →
      allowed t a → step t a = .ok (b, u) → Runs step allowed s (log ++ [(a, b)]) u

namespace Runs

variable {step : σ → α → Except ε (β × σ)} {allowed : σ → α → Prop} {s t : σ} {log : List (α × β)}

/-- An invariant that speaks of the log as well. -/
theorem invariant_log {I : List (α × β) → σ → Prop} (start : I [] s)
    (keeps : ∀ {log t a b u}, I log t → allowed t a → step t a = .ok (b, u) → I (log ++ [(a, b)]) u)
    (run : Runs step allowed s log t) : I log t := by
  induction run with
  | start => exact start
  | next _ fine took ih => exact keeps ih fine took

theorem append {more : List (α × β)} {u : σ} (first : Runs step allowed s log t)
    (second : Runs step allowed t more u) : Runs step allowed s (log ++ more) u := by
  induction second with
  | start =>
    rw [List.append_nil]
    exact first
  | next _ fine took ih =>
    rw [← List.append_assoc]
    exact ih.next fine took

theorem invariant {I : σ → Prop} (start : I s)
    (keeps : ∀ {t a b u}, I t → allowed t a → step t a = .ok (b, u) → I u)
    (run : Runs step allowed s log t) : I t :=
  run.invariant_log (I := fun _ t => I t) start keeps

end Runs

/-! ## Running a list of inputs -/

variable (step : σ → α → Except ε (β × σ)) (allowed : σ → α → Prop)

/-- What holds of a result, where there is one. -/
def OnOk (x : Except ε α) (P : α → Prop) : Prop := ∀ a, x = .ok a → P a

instance {x : Except ε α} {P : α → Prop} [DecidablePred P] : Decidable (OnOk x P) :=
  match x with
  | .error _ => .isTrue nofun
  | .ok a => decidable_of_iff (P a) ⟨fun holds _ same => Except.ok.inj same ▸ holds, fun all => all a rfl⟩

variable [∀ s a, Decidable (allowed s a)]

/-- The state behind a list of inputs that were all allowed. -/
def outcome (s : σ) : List α → Option σ
  | [] => some s
  | a :: inputs =>
      if allowed s a then
        match step s a with
        | .error _ => none
        | .ok (_, t) => outcome t inputs
      else none

/-- The inputs lead to a state with the property. -/
def ends (s : σ) (inputs : List α) (P : σ → Prop) [DecidablePred P] : Bool :=
  match outcome step allowed s inputs with
  | none => false
  | some t => P t

variable {step allowed}

theorem exists_runs_of_ends {s : σ} {inputs : List α} {P : σ → Prop} [DecidablePred P]
    (ended : ends step allowed s inputs P = true) : ∃ log t, Runs step allowed s log t ∧ P t := by
  suffices general : ∀ inputs log t, Runs step allowed s log t → ends step allowed t inputs P = true →
      ∃ log t, Runs step allowed s log t ∧ P t from
    general inputs [] s .start ended
  intro inputs
  induction inputs with
  | nil =>
    intro log t run ended
    exact ⟨log, t, run, of_decide_eq_true ended⟩
  | cons a inputs ih =>
    intro log t run ended
    unfold ends outcome at ended
    by_cases fine : allowed t a
    case neg => simp [fine] at ended
    case pos =>
      cases took : step t a with
      | error e => simp [fine, took] at ended
      | ok result =>
        obtain ⟨b, u⟩ := result
        simp only [fine, took, if_true] at ended
        exact ih (log ++ [(a, b)]) u (run.next fine took) ended

end RiscvVp.Lib
