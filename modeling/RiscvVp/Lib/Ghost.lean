/-
# RiscvVp.Lib.Ghost -- computations with a record

A computation on a state with a record beside it that it only writes.  Without the record it is the
computation it was made from (`Erases`).
-/
import RiscvVp.Lib.Exec

namespace RiscvVp.Lib

set_option autoImplicit false

variable {σ ρ ε α β : Type}

namespace Exec

/-- The record is left alone. -/
def beside (ρ : Type) (m : Exec σ ε α) : Exec (σ × ρ) ε α := onPart Prod.fst (fun s p => (s, p.2)) m

/-- Only the record is written. -/
def note (f : ρ → ρ) : Exec (σ × ρ) ε Unit := update fun p => (p.1, f p.2)

theorem run_beside (m : Exec σ ε α) (s : σ) (r : ρ) :
    (beside ρ m).run (s, r) = ((m.run s).1, ((m.run s).2, r)) := rfl

theorem run_beside_ok {m : Exec σ ε α} {s t : σ} {a : α} (ran : m.run s = (.ok a, t)) (r : ρ) :
    (beside ρ m).run (s, r) = (.ok a, (t, r)) := by
  rw [run_beside, ran]

theorem run_beside_error {m : Exec σ ε α} {s t : σ} {e : ε} (ran : m.run s = (.error e, t)) (r : ρ) :
    (beside ρ m).run (s, r) = (.error e, (t, r)) := by
  rw [run_beside, ran]

end Exec

/-- Whatever the record is, `m'` ends as `m` does, and with the state of `m`. -/
def Erases (m' : Exec (σ × ρ) ε α) (m : Exec σ ε α) : Prop :=
  ∀ s r, ∃ r', m'.run (s, r) = ((m.run s).1, ((m.run s).2, r'))

namespace Erases

theorem beside (m : Exec σ ε α) : Erases (Exec.beside ρ m) m := fun s r => ⟨r, Exec.run_beside m s r⟩

theorem bind {m' : Exec (σ × ρ) ε α} {m : Exec σ ε α} {f' : α → Exec (σ × ρ) ε β} {f : α → Exec σ ε β}
    (first : Erases m' m) (rest : ∀ a, Erases (f' a) (f a)) : Erases (m' >>= f') (m >>= f) := by
  intro s r
  obtain ⟨r', ran'⟩ := first s r
  cases ran : m.run s with
  | mk result t =>
    rw [ran] at ran'
    cases result with
    | ok a =>
      rw [Exec.run_bind_ok ran', Exec.run_bind_ok ran]
      exact rest a t r'
    | error e =>
      rw [Exec.run_bind_error ran', Exec.run_bind_error ran]
      exact ⟨r', rfl⟩

/-- Writing the record does nothing else. -/
theorem note {m' : Exec (σ × ρ) ε α} {m : Exec σ ε α} (f : ρ → ρ) (rest : Erases m' m) :
    Erases (Exec.note f >>= fun _ => m') m := fun s r => rest s (f r)

end Erases

end RiscvVp.Lib
