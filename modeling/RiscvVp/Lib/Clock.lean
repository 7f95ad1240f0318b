/-
# RiscvVp.Lib.Clock -- a clock that is raised and set

A clock that is `raise`d never goes back, one that is `set` may.  What is seen of it along a
sequence of updates does not decrease exactly where no update comes before one that sets the clock
to an earlier time.
-/
import Mathlib.Order.Lattice
import Mathlib.Order.BoundedOrder.Basic
import Mathlib.Order.Defs.LinearOrder
import Mathlib.Data.List.Chain

namespace RiscvVp.Lib

set_option autoImplicit false

inductive Update (α : Type) where
  | raise (time : α)
  | set (time : α)
deriving DecidableEq

namespace Update

section

variable {α : Type}

def time : Update α → α
  | raise time => time
  | set time => time

def Sets : Update α → Prop
  | raise _ => False
  | set _ => True

instance : DecidablePred (Sets : Update α → Prop)
  | raise _ => .isFalse id
  | set _ => .isTrue trivial

end

variable {α : Type} [LinearOrder α]

def apply (clock : α) : Update α → α
  | raise time => max clock time
  | set time => time

/-- The clock behind all updates. -/
def last (clock : α) (updates : List (Update α)) : α := updates.foldl apply clock

/-- The clock behind each update. -/
def seen : α → List (Update α) → List α
  | _, [] => []
  | clock, update :: updates => update.apply clock :: seen (update.apply clock) updates

/-- No update is later than one behind it that sets the clock. -/
def InOrder (updates : List (Update α)) : Prop :=
  updates.Pairwise fun a b => b.Sets → a.time ≤ b.time

instance {updates : List (Update α)} : Decidable (InOrder updates) :=
  inferInstanceAs (Decidable (updates.Pairwise _))

@[simp] theorem last_append (clock : α) (updates : List (Update α)) (update : Update α) :
    last clock (updates ++ [update]) = update.apply (last clock updates) := by
  simp [last]

theorem seen_append (clock : α) (updates : List (Update α)) (update : Update α) :
    seen clock (updates ++ [update]) = seen clock updates ++ [update.apply (last clock updates)] := by
  induction updates generalizing clock with
  | nil => rfl
  | cons first updates ih =>
    simp only [List.cons_append, seen, ih]
    rfl

/-- The clock as it is counts as an update that comes first. -/
theorem isChain_seen_iff (clock : α) (updates : List (Update α)) :
    (clock :: seen clock updates).IsChain (· ≤ ·) ↔
      (∀ b ∈ updates, b.Sets → clock ≤ b.time) ∧ InOrder updates := by
  induction updates generalizing clock with
  | nil => simp [seen, InOrder]
  | cons update updates ih =>
    simp only [seen, List.isChain_cons_cons, ih, InOrder, List.pairwise_cons, List.forall_mem_cons]
    cases update with
    | raise time =>
      constructor
      · rintro ⟨-, later, rest⟩
        refine ⟨⟨False.elim, fun b among sets => ?_⟩, fun b among sets => ?_, rest⟩
        · exact (le_max_left clock time).trans (later b among sets)
        · exact (le_max_right clock time).trans (later b among sets)
      · rintro ⟨⟨-, above⟩, later, rest⟩
        exact ⟨le_max_left clock time, fun b among sets => max_le (above b among sets) (later b among sets), rest⟩
    | set time =>
      constructor
      · rintro ⟨first, later, rest⟩
        exact ⟨⟨fun _ => first, fun b among sets => first.trans (later b among sets)⟩, later, rest⟩
      · rintro ⟨⟨first, -⟩, later, rest⟩
        exact ⟨first trivial, later, rest⟩

/-- What is seen of a clock that starts at the bottom. -/
theorem pairwise_seen_iff [OrderBot α] (updates : List (Update α)) :
    (seen ⊥ updates).Pairwise (· ≤ ·) ↔ InOrder updates := by
  have chain := isChain_seen_iff (⊥ : α) updates
  rw [List.isChain_iff_pairwise, List.pairwise_cons] at chain
  constructor
  · intro sorted
    exact (chain.mp ⟨fun _ _ => bot_le, sorted⟩).2
  · intro order
    exact (chain.mpr ⟨fun _ _ _ => bot_le, order⟩).2

end Update

end RiscvVp.Lib
