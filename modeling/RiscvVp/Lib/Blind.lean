/-
# RiscvVp.Lib.Blind -- two executions that cannot be told apart

`Blind E m`: from two states that `E` relates, `m` ends in the same way, with the same value or the
same exception, and again in states that `E` relates.  What differs between the two states does not
show in what `m` returns and does not spread.  `Blind` is a class, and the rules of the control
structures are its instances, so a whole computation is blind as soon as its reads and updates are.
-/
import RiscvVp.Lib.Exec

namespace RiscvVp.Lib

set_option autoImplicit false

variable {σ τ ε α β : Type}

/-- From these two states. -/
def BlindAt (E : σ → σ → Prop) (m : Exec σ ε α) (s s' : σ) : Prop :=
  (m.run s).1 = (m.run s').1 ∧ E (m.run s).2 (m.run s').2

class Blind (E : σ → σ → Prop) (m : Exec σ ε α) : Prop where
  same : ∀ {s s'}, E s s' → BlindAt E m s s'

section At

variable {E : σ → σ → Prop} {s s' : σ}

theorem BlindAt.of_blind {m : Exec σ ε α} (blind : Blind E m) (related : E s s') : BlindAt E m s s' :=
  blind.same related

/-- The second part may be judged by what the first one came to. -/
theorem BlindAt.bind {m : Exec σ ε α} {f : α → Exec σ ε β} (first : BlindAt E m s s')
    (rest : ∀ a t t', m.run s = (.ok a, t) → m.run s' = (.ok a, t') → E t t' → BlindAt E (f a) t t') :
    BlindAt E (m >>= f) s s' := by
  obtain ⟨result, after⟩ := first
  cases ran : m.run s with
  | mk r t =>
    cases ran' : m.run s' with
    | mk r' t' =>
      rw [ran, ran'] at result after
      cases result
      unfold BlindAt
      rw [Exec.run_bind, Exec.run_bind, ran, ran']
      cases r with
      | ok a => exact rest a t t' ran ran' after
      | error e => exact ⟨rfl, after⟩

theorem BlindAt.ite {c : Prop} [Decidable c] {m n : Exec σ ε α} (yes : c → BlindAt E m s s')
    (no : ¬ c → BlindAt E n s s') : BlindAt E (if c then m else n) s s' := by
  split
  case isTrue holds => exact yes holds
  case isFalse fails => exact no fails

/-- A handler goes on from where the exception was thrown. -/
theorem BlindAt.tryCatch {m : Exec σ ε α} {handler : ε → Exec σ ε α} (body : BlindAt E m s s')
    (caught : ∀ e t t', E t t' → BlindAt E (handler e) t t') : BlindAt E (m.tryCatch handler) s s' := by
  obtain ⟨result, after⟩ := body
  cases ran : m.run s with
  | mk r t =>
    cases ran' : m.run s' with
    | mk r' t' =>
      rw [ran, ran'] at result after
      cases result
      unfold BlindAt
      cases r with
      | ok a =>
        rw [Exec.run_tryCatch_ok ran, Exec.run_tryCatch_ok ran']
        exact ⟨rfl, after⟩
      | error e =>
        rw [Exec.run_tryCatch_error ran, Exec.run_tryCatch_error ran']
        exact caught e t t' after

/-- What is read of both is the same. -/
theorem BlindAt.read {f : σ → α} (related : E s s') (sees : f s = f s') :
    BlindAt E (Exec.read f : Exec σ ε α) s s' := ⟨congrArg Except.ok sees, related⟩

/-- What is read may differ, as long as nothing that follows depends on the difference. -/
theorem BlindAt.read_bind {f : σ → α} {k : α → Exec σ ε β} (sees : k (f s) = k (f s'))
    (rest : BlindAt E (k (f s)) s s') : BlindAt E (Exec.read f >>= k) s s' := by
  unfold BlindAt at *
  rw [Exec.run_read_bind, Exec.run_read_bind, ← sees]
  exact rest

end At

namespace Blind

variable {E : σ → σ → Prop}

theorem read {f : σ → α} (sees : ∀ {s s'}, E s s' → f s = f s') : Blind E (Exec.read f : Exec σ ε α) :=
  ⟨fun related => ⟨congrArg Except.ok (sees related), related⟩⟩

theorem update {f : σ → σ} (keeps : ∀ {s s'}, E s s' → E (f s) (f s')) :
    Blind E (Exec.update f : Exec σ ε Unit) := ⟨fun related => ⟨rfl, keeps related⟩⟩

/-- A computation on a part that is the same in both. -/
theorem onPart {get : σ → τ} {set : τ → σ → σ} (m : Exec τ ε α)
    (sees : ∀ {s s'}, E s s' → get s = get s') (keeps : ∀ {s s'} x, E s s' → E (set x s) (set x s')) :
    Blind E (Exec.onPart get set m) where
  same {s s'} related := by
    unfold BlindAt
    have first : (Exec.onPart get set m).run s = ((m (get s)).1, set (m (get s)).2 s) := rfl
    have second : (Exec.onPart get set m).run s' = ((m (get s')).1, set (m (get s')).2 s') := rfl
    rw [first, second, sees related]
    exact ⟨rfl, keeps _ related⟩

instance instPure (a : α) : Blind E (pure a : Exec σ ε α) := ⟨fun related => ⟨rfl, related⟩⟩

instance instRaise (e : ε) : Blind E (Exec.raise e : Exec σ ε α) := ⟨fun related => ⟨rfl, related⟩⟩

theorem bind {m : Exec σ ε α} {f : α → Exec σ ε β} (first : Blind E m) (rest : ∀ a, Blind E (f a)) :
    Blind E (m >>= f) :=
  ⟨fun related => (first.same related).bind fun a _ _ _ _ after => (rest a).same after⟩

instance instBind (m : Exec σ ε α) (f : α → Exec σ ε β) [first : Blind E m] [rest : ∀ a, Blind E (f a)] :
    Blind E (m >>= f) := bind first rest

instance instIte (c : Prop) [Decidable c] (m n : Exec σ ε α) [Blind E m] [Blind E n] :
    Blind E (if c then m else n) := by
  split <;> assumption

instance instWhen (c : Prop) [Decidable c] (m : Exec σ ε Unit) [Blind E m] : Blind E (Exec.when c m) := by
  unfold Exec.when
  infer_instance

instance instTryCatch (m : Exec σ ε α) (handler : ε → Exec σ ε α) [body : Blind E m]
    [caught : ∀ e, Blind E (handler e)] : Blind E (m.tryCatch handler) :=
  ⟨fun related => (body.same related).tryCatch fun e _ _ after => (caught e).same after⟩

/-- Two executions that return. -/
theorem ok {m : Exec σ ε α} (blind : Blind E m) {s s' t : σ} {a : α} (related : E s s')
    (ran : m.run s = (.ok a, t)) : ∃ t', m.run s' = (.ok a, t') ∧ E t t' := by
  obtain ⟨result, after⟩ := blind.same related
  rw [ran] at result after
  exact ⟨(m.run s').2, Prod.ext result.symm rfl, after⟩

end Blind

end RiscvVp.Lib
