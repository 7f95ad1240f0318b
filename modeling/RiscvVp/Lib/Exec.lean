/-
# RiscvVp.Lib.Exec -- stateful code that can throw

`Exec σ ε α` is a computation over a state `σ` whose exceptions `ε` keep the state
they were thrown in, as C++ exceptions do.

A `Transition` relates the state before, the way the computation ended (`none`: it
returned; `some e`: it threw `e`) and the state after.  A transition that is `Closed`
(nothing happened; one thing after the other) is a property of a whole computation
as soon as it is one of its parts: `Sat R m` is a class, and the rules of the control
structures are its instances.
-/
import Mathlib.Data.List.Basic

namespace RiscvVp.Lib

set_option autoImplicit false

variable {σ ε α β : Type}

/-- A computation that reads and writes a `σ` and ends with a value or an exception. -/
def Exec (σ ε α : Type) := σ → Except ε α × σ

namespace Exec

protected def pure (a : α) : Exec σ ε α := fun s => (.ok a, s)

protected def bind (m : Exec σ ε α) (f : α → Exec σ ε β) : Exec σ ε β := fun s =>
  match m s with
  | (.ok a, t) => f a t
  | (.error e, t) => (.error e, t)

instance : Monad (Exec σ ε) where
  pure := Exec.pure
  bind := Exec.bind

def run (m : Exec σ ε α) (s : σ) : Except ε α × σ := m s

/-- `throw e`: the state stays as it is. -/
def raise (e : ε) : Exec σ ε α := fun s => (.error e, s)

def read (f : σ → α) : Exec σ ε α := fun s => (.ok (f s), s)

def update (f : σ → σ) : Exec σ ε Unit := fun s => (.ok (), f s)

/-- A step that cannot throw. -/
def call (f : σ → α × σ) : Exec σ ε α := fun s => (.ok (f s).1, (f s).2)

/-- `if (c) m;`. -/
def when (c : Prop) [Decidable c] (m : Exec σ ε Unit) : Exec σ ε Unit :=
  if c then m else pure ()

/-- `if (!c) throw e;`. -/
def ensure (c : Prop) [Decidable c] (e : ε) : Exec σ ε Unit := if c then pure () else raise e

/-- `try m catch (e) handler(e)`, with every effect of `m` kept. -/
def tryCatch (m : Exec σ ε α) (handler : ε → Exec σ ε α) : Exec σ ε α := fun s =>
  match m s with
  | (.ok a, t) => (.ok a, t)
  | (.error e, t) => handler e t

/-- A computation on a part of the state. -/
def onPart {τ : Type} (get : σ → τ) (set : τ → σ → σ) (m : Exec τ ε α) : Exec σ ε α := fun s =>
  ((m (get s)).1, set (m (get s)).2 s)

@[simp] theorem run_pure (a : α) (s : σ) : (pure a : Exec σ ε α).run s = (.ok a, s) := rfl

@[simp] theorem run_raise (e : ε) (s : σ) : (raise e : Exec σ ε α).run s = (.error e, s) := rfl

@[simp] theorem run_read (f : σ → α) (s : σ) : (read f : Exec σ ε α).run s = (.ok (f s), s) := rfl

@[simp] theorem run_update (f : σ → σ) (s : σ) :
    (update f : Exec σ ε Unit).run s = (.ok (), f s) := rfl

@[simp] theorem run_call (f : σ → α × σ) (s : σ) :
    (call f : Exec σ ε α).run s = (.ok (f s).1, (f s).2) := rfl

theorem run_bind (m : Exec σ ε α) (f : α → Exec σ ε β) (s : σ) :
    (m >>= f).run s =
      match m.run s with
      | (.ok a, t) => (f a).run t
      | (.error e, t) => (.error e, t) := rfl

theorem run_bind_ok {m : Exec σ ε α} {f : α → Exec σ ε β} {s t : σ} {a : α}
    (ran : m.run s = (.ok a, t)) : (m >>= f).run s = (f a).run t := by
  rw [run_bind, ran]

theorem run_bind_error {m : Exec σ ε α} {f : α → Exec σ ε β} {s t : σ} {e : ε}
    (ran : m.run s = (.error e, t)) : (m >>= f).run s = (.error e, t) := by
  rw [run_bind, ran]

/-- A sequence that returns: its two parts. -/
theorem run_bind_eq_ok {m : Exec σ ε α} {f : α → Exec σ ε β} {s u : σ} {b : β} :
    (m >>= f).run s = (.ok b, u) ↔ ∃ a t, m.run s = (.ok a, t) ∧ (f a).run t = (.ok b, u) := by
  rw [run_bind]
  rcases m.run s with ⟨_ | a, t⟩
  · constructor
    · intro threw
      cases threw
    · rintro ⟨a, t, returned, -⟩
      cases returned
  · constructor
    · intro rest
      exact ⟨a, t, rfl, rest⟩
    · rintro ⟨a, t, returned, rest⟩
      cases returned
      exact rest

/-- A sequence that throws: in its first part or in its second. -/
theorem run_bind_eq_error {m : Exec σ ε α} {f : α → Exec σ ε β} {s u : σ} {e : ε} :
    (m >>= f).run s = (.error e, u) ↔ m.run s = (.error e, u) ∨
      ∃ a t, m.run s = (.ok a, t) ∧ (f a).run t = (.error e, u) := by
  rw [run_bind]
  rcases m.run s with ⟨_ | a, t⟩
  · constructor
    · intro threw
      cases threw
      exact .inl rfl
    · rintro (threw | ⟨a, t, returned, -⟩)
      · cases threw
        rfl
      · cases returned
  · constructor
    · intro rest
      exact .inr ⟨a, t, rfl, rest⟩
    · rintro (threw | ⟨a, t, returned, rest⟩)
      · cases threw
      · cases returned
        exact rest

@[simp] theorem run_pure_bind (a : α) (f : α → Exec σ ε β) (s : σ) :
    (pure a >>= f).run s = (f a).run s := rfl

@[simp] theorem run_read_bind (g : σ → α) (f : α → Exec σ ε β) (s : σ) :
    (read g >>= f).run s = (f (g s)).run s := rfl

@[simp] theorem run_update_bind (g : σ → σ) (f : Unit → Exec σ ε β) (s : σ) :
    (update g >>= f).run s = (f ()).run (g s) := rfl

@[simp] theorem run_raise_bind (e : ε) (f : α → Exec σ ε β) (s : σ) :
    ((raise e : Exec σ ε α) >>= f).run s = (.error e, s) := rfl

theorem run_ite (c : Prop) [Decidable c] (m n : Exec σ ε α) (s : σ) :
    (if c then m else n).run s = if c then m.run s else n.run s := by
  split <;> rfl

theorem when_pos {c : Prop} [Decidable c] (holds : c) (m : Exec σ ε Unit) : when c m = m :=
  if_pos holds

theorem when_neg {c : Prop} [Decidable c] (fails : ¬ c) (m : Exec σ ε Unit) :
    when c m = pure () := if_neg fails

theorem ensure_pos {c : Prop} [Decidable c] (holds : c) (e : ε) : (ensure c e : Exec σ ε Unit) = pure () :=
  if_pos holds

theorem ensure_neg {c : Prop} [Decidable c] (fails : ¬ c) (e : ε) :
    (ensure c e : Exec σ ε Unit) = raise e := if_neg fails

/-- Behind a check that was passed. -/
theorem ok_of_ensure_bind {c : Prop} [Decidable c] {e : ε} {f : Unit → Exec σ ε β} {s t : σ} {b : β}
    (ran : (ensure c e >>= f).run s = (.ok b, t)) : c ∧ (f ()).run s = (.ok b, t) := by
  by_cases holds : c
  · rw [ensure_pos holds] at ran
    exact ⟨holds, ran⟩
  · rw [ensure_neg holds] at ran
    cases ran

theorem run_tryCatch_ok {m : Exec σ ε α} {handler : ε → Exec σ ε α} {s t : σ} {a : α}
    (ran : m.run s = (.ok a, t)) : (m.tryCatch handler).run s = (.ok a, t) := by
  have unfolded : (m.tryCatch handler).run s =
      match m.run s with
      | (.ok a, t) => (.ok a, t)
      | (.error e, t) => (handler e).run t := rfl
  rw [unfolded, ran]

theorem run_tryCatch_error {m : Exec σ ε α} {handler : ε → Exec σ ε α} {s t : σ} {e : ε}
    (ran : m.run s = (.error e, t)) : (m.tryCatch handler).run s = (handler e).run t := by
  have unfolded : (m.tryCatch handler).run s =
      match m.run s with
      | (.ok a, t) => (.ok a, t)
      | (.error e, t) => (handler e).run t := rfl
  rw [unfolded, ran]

/-- Every value that `m` returns is a `P`. -/
def Returns (P : α → Prop) (m : Exec σ ε α) : Prop := ∀ ⦃s a t⦄, m.run s = (.ok a, t) → P a

theorem Returns.pure {P : α → Prop} {a : α} (holds : P a) : Returns P (pure a : Exec σ ε α) := by
  intro s b t ran
  cases ran
  exact holds

theorem Returns.bind {P : β → Prop} {m : Exec σ ε α} {f : α → Exec σ ε β}
    (rest : ∀ a, Returns P (f a)) : Returns P (m >>= f) := by
  intro s b u ran
  obtain ⟨a, t, -, returned⟩ := run_bind_eq_ok.mp ran
  exact rest a returned

theorem Returns.ite {P : α → Prop} {c : Prop} [Decidable c] {m n : Exec σ ε α} (yes : Returns P m)
    (no : Returns P n) : Returns P (if c then m else n) := by
  split
  · exact yes
  · exact no

/-- Every state in which `m` returns is a `P`. -/
def Leaves (P : σ → Prop) (m : Exec σ ε α) : Prop := ∀ ⦃s a t⦄, m.run s = (.ok a, t) → P t

theorem Leaves.bind {P : σ → Prop} {m : Exec σ ε α} {f : α → Exec σ ε β}
    (rest : ∀ a, Leaves P (f a)) : Leaves P (m >>= f) := by
  intro s b u ran
  obtain ⟨a, t, -, returned⟩ := run_bind_eq_ok.mp ran
  exact rest a returned

end Exec

/-! ## Properties of whole computations -/

/-- How an execution ended: with a value, or with the exception it threw. -/
def failure : Except ε α → Option ε
  | .ok _ => none
  | .error e => some e

@[simp] theorem failure_ok (a : α) : failure (.ok a : Except ε α) = none := rfl

@[simp] theorem failure_error (e : ε) : failure (.error e : Except ε α) = some e := rfl

abbrev Transition (σ ε : Type) := σ → Option ε → σ → Prop

/-- A transition that allows doing nothing, and doing one thing after another. -/
class Transition.Closed (R : Transition σ ε) : Prop where
  refl : ∀ s, R s none s
  trans : ∀ {s t u o}, R s none t → R t o u → R s o u

/-- No restriction. -/
def Transition.Any : Transition σ ε := fun _ _ _ => True

instance : Transition.Closed (Transition.Any : Transition σ ε) := ⟨fun _ => trivial, fun _ _ => trivial⟩

/-- Every transition of `Q` is one of `R`. -/
class Transition.Le (Q R : Transition σ ε) : Prop where
  weaken : ∀ {s o t}, Q s o t → R s o t

instance (R : Transition σ ε) : Transition.Le R R := ⟨id⟩

/-- Every execution of `m` makes a transition of `R`. -/
class Sat (R : Transition σ ε) (m : Exec σ ε α) : Prop where
  holds : ∀ s, R s (failure (m.run s).1) (m.run s).2

/-- The execution of `m` from `s` makes a transition of `R`: what comes later in `m` may be
judged by what came earlier. -/
def SatAt (R : Transition σ ε) (m : Exec σ ε α) (s : σ) : Prop := R s (failure (m.run s).1) (m.run s).2

namespace SatAt

open Transition

variable {R : Transition σ ε} {s : σ}

theorem of_sat {m : Exec σ ε α} (sat : Sat R m) : SatAt R m s := sat.holds s

theorem ok {m : Exec σ ε α} {t : σ} {a : α} (sat : SatAt R m s) (ran : m.run s = (.ok a, t)) :
    R s none t := by
  unfold SatAt at sat
  rwa [ran] at sat

theorem error {m : Exec σ ε α} {t : σ} {e : ε} (sat : SatAt R m s) (ran : m.run s = (.error e, t)) :
    R s (some e) t := by
  unfold SatAt at sat
  rwa [ran] at sat

theorem bind [Closed R] {m : Exec σ ε α} {f : α → Exec σ ε β} (first : SatAt R m s)
    (rest : ∀ a t, m.run s = (.ok a, t) → SatAt R (f a) t) : SatAt R (m >>= f) s := by
  unfold SatAt
  cases ran : m.run s with
  | mk result t =>
    cases result with
    | ok a =>
      rw [Exec.run_bind_ok ran]
      exact Closed.trans (first.ok ran) (rest a t ran)
    | error e =>
      rw [Exec.run_bind_error ran]
      exact first.error ran

theorem ite {c : Prop} [Decidable c] {m n : Exec σ ε α} (yes : c → SatAt R m s)
    (no : ¬ c → SatAt R n s) : SatAt R (if c then m else n) s := by
  split
  case isTrue holds => exact yes holds
  case isFalse fails => exact no fails

/-- A handler goes on from where the exception was thrown. -/
theorem tryCatch {m : Exec σ ε α} {handler : ε → Exec σ ε α} (body : SatAt R m s)
    (caught : ∀ e t, R s (some e) t → R s (failure ((handler e).run t).1) ((handler e).run t).2) :
    SatAt R (m.tryCatch handler) s := by
  unfold SatAt
  cases ran : m.run s with
  | mk result t =>
    cases result with
    | ok a =>
      rw [Exec.run_tryCatch_ok ran]
      exact body.ok ran
    | error e =>
      rw [Exec.run_tryCatch_error ran]
      exact caught e t (body.error ran)

end SatAt

namespace Sat

open Transition

variable {R : Transition σ ε}

theorem ok {m : Exec σ ε α} (sat : Sat R m) {s t : σ} {a : α} (ran : m.run s = (.ok a, t)) :
    R s none t := by
  have step := sat.holds s
  rwa [ran] at step

theorem error {m : Exec σ ε α} (sat : Sat R m) {s t : σ} {e : ε} (ran : m.run s = (.error e, t)) :
    R s (some e) t := by
  have step := sat.holds s
  rwa [ran] at step

instance instPure [Closed R] (a : α) : Sat R (pure a : Exec σ ε α) := ⟨Closed.refl⟩

instance instRead [Closed R] (f : σ → α) : Sat R (Exec.read f : Exec σ ε α) := ⟨Closed.refl⟩

theorem bind [Closed R] {m : Exec σ ε α} {f : α → Exec σ ε β} (first : Sat R m)
    (rest : ∀ a, Sat R (f a)) : Sat R (m >>= f) where
  holds _ := SatAt.bind (.of_sat first) fun a _ _ => .of_sat (rest a)

instance instBind [Closed R] (m : Exec σ ε α) (f : α → Exec σ ε β) [first : Sat R m]
    [rest : ∀ a, Sat R (f a)] : Sat R (m >>= f) := bind first rest

instance instIte (c : Prop) [Decidable c] (m n : Exec σ ε α) [Sat R m] [Sat R n] :
    Sat R (if c then m else n) := by
  split <;> assumption

instance instWhen [Closed R] (c : Prop) [Decidable c] (m : Exec σ ε Unit) [Sat R m] :
    Sat R (Exec.when c m) := by
  unfold Exec.when
  infer_instance

/-- A branch may be judged under its condition. -/
theorem ite {c : Prop} [Decidable c] {m n : Exec σ ε α} (yes : c → Sat R m) (no : ¬ c → Sat R n) :
    Sat R (if c then m else n) := by
  split
  case isTrue holds => exact yes holds
  case isFalse fails => exact no fails

theorem raise {e : ε} (allowed : ∀ s, R s (some e) s) : Sat R (Exec.raise e : Exec σ ε α) :=
  ⟨allowed⟩

theorem call {f : σ → α × σ} (allowed : ∀ s, R s none (f s).2) :
    Sat R (Exec.call f : Exec σ ε α) := ⟨allowed⟩

theorem update {f : σ → σ} (allowed : ∀ s, R s none (f s)) :
    Sat R (Exec.update f : Exec σ ε Unit) := ⟨allowed⟩

/-- A handler that passes the exception on, or one whose exceptions can be forgotten. -/
theorem tryCatch [Closed R] {m : Exec σ ε α} {handler : ε → Exec σ ε α} [body : Sat R m]
    (caught : ∀ e, handler e = Exec.raise e ∨
      (∀ {s t}, R s (some e) t → R s none t) ∧ Sat R (handler e)) :
    Sat R (m.tryCatch handler) where
  holds _ := SatAt.tryCatch (.of_sat body) fun e t thrown => by
    rcases caught e with passed | ⟨forget, handled⟩
    · rw [passed]
      exact thrown
    · exact Closed.trans (forget thrown) (handled.holds t)

theorem mono {R' : Transition σ ε} {m : Exec σ ε α} (sat : Sat R m)
    (weaker : ∀ {s o t}, R s o t → R' s o t) : Sat R' m := ⟨fun s => weaker (sat.holds s)⟩

end Sat

/-! ## All or nothing -/

section Atomic

variable (R quiet : Transition σ ε) (P : ε → Prop)

/-- `R`, and no exception of the kind `P`. -/
def Transition.Settled : Transition σ ε := fun s o t => R s o t ∧ ∀ e, o = some e → ¬ P e

/-- `R`, and `quiet` up to here if there is an exception of the kind `P`. -/
def Transition.Atomic : Transition σ ε := fun s o t =>
  R s o t ∧ ∀ e, o = some e → P e → quiet s o t

variable {R quiet P}

instance [Transition.Closed R] : Transition.Closed (Transition.Settled R P) where
  refl s := ⟨Transition.Closed.refl s, nofun⟩
  trans first second := ⟨Transition.Closed.trans first.1 second.1, second.2⟩

namespace Sat

open Transition

theorem settled {m : Exec σ ε α} (sat : Sat R m) (returns : ∀ s, failure (m.run s).1 = none) :
    Sat (Settled R P) m where
  holds s := ⟨sat.holds s, by rw [returns s]; exact nofun⟩

theorem of_atomic {m : Exec σ ε α} (sat : Sat (Atomic R quiet P) m) : Sat R m := sat.mono And.left

theorem atomic_of_quiet [Le quiet R] {m : Exec σ ε α} (sat : Sat quiet m) :
    Sat (Atomic R quiet P) m := sat.mono fun step => ⟨Le.weaken step, fun _ _ _ => step⟩

theorem atomic_of_settled {m : Exec σ ε α} (sat : Sat (Settled R P) m) :
    Sat (Atomic R quiet P) m :=
  sat.mono fun step => ⟨step.1, fun e ended bad => absurd bad (step.2 e ended)⟩

/-- First the part that may still be given up ... -/
theorem bind_atomic [Closed R] [Closed quiet] [Le quiet R] {m : Exec σ ε α} {f : α → Exec σ ε β}
    (first : Sat quiet m) (rest : ∀ a, Sat (Atomic R quiet P) (f a)) :
    Sat (Atomic R quiet P) (m >>= f) where
  holds s := by
    cases ran : m.run s with
    | mk result t =>
      cases result with
      | error e =>
        rw [Exec.run_bind_error ran]
        exact ⟨Le.weaken (first.error ran), fun _ _ _ => first.error ran⟩
      | ok a =>
        rw [Exec.run_bind_ok ran]
        have before := first.ok ran
        obtain ⟨after, quietly⟩ := (rest a).holds t
        exact ⟨Closed.trans (Le.weaken before) after,
          fun e ended bad => Closed.trans before (quietly e ended bad)⟩

/-- ... then the part that may not. -/
theorem atomic_bind [Closed R] {m : Exec σ ε α} {f : α → Exec σ ε β}
    (first : Sat (Atomic R quiet P) m) (rest : ∀ a, Sat (Settled R P) (f a)) :
    Sat (Atomic R quiet P) (m >>= f) where
  holds s := by
    cases ran : m.run s with
    | mk result t =>
      cases result with
      | error e =>
        rw [Exec.run_bind_error ran]
        exact first.error ran
      | ok a =>
        rw [Exec.run_bind_ok ran]
        obtain ⟨after, never⟩ := (rest a).holds t
        exact ⟨Closed.trans (first.ok ran).1 after,
          fun e ended bad => absurd bad (never e ended)⟩

instance (priority := low) [Le quiet R] (m : Exec σ ε α) [sat : Sat quiet m] :
    Sat (Atomic R quiet P) m := atomic_of_quiet sat

instance (priority := low) (m : Exec σ ε α) [sat : Sat (Settled R P) m] :
    Sat (Atomic R quiet P) m := atomic_of_settled sat

instance (priority := low) [Closed R] (m : Exec σ ε α) (f : α → Exec σ ε β)
    [first : Sat (Atomic R quiet P) m] [rest : ∀ a, Sat (Settled R P) (f a)] :
    Sat (Atomic R quiet P) (m >>= f) := atomic_bind first rest

instance [Closed R] [Closed quiet] [Le quiet R] (m : Exec σ ε α) (f : α → Exec σ ε β)
    [first : Sat quiet m] [rest : ∀ a, Sat (Atomic R quiet P) (f a)] :
    Sat (Atomic R quiet P) (m >>= f) := bind_atomic first rest

end Sat

end Atomic

end RiscvVp.Lib
