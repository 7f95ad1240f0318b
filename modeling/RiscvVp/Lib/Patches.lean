/-
# RiscvVp.Lib.Patches -- functions that are overwritten in places

A patch covers some arguments and has a value for each of them.  Where the patches of a list are apart,
each of them is what is found at its arguments behind all of them, and what none of them covers is as it was.
-/
import Mathlib.Data.List.Basic

namespace RiscvVp.Lib

set_option autoImplicit false

variable {ι α β : Type}

structure Patches (ι α β : Type) where
  covers : ι → α → Prop
  decidable : ∀ i, DecidablePred (covers i)
  value : ι → α → β

namespace Patches

variable (patches : Patches ι α β)

def apply (f : α → β) (i : ι) : α → β := fun a =>
  have := patches.decidable i a
  if patches.covers i a then patches.value i a else f a

def Apart (i j : ι) : Prop := ∀ a, patches.covers i a → ¬ patches.covers j a

variable {patches} {f : α → β} {i : ι} {a : α} {order : List ι}

theorem apply_of_covers (covered : patches.covers i a) : patches.apply f i a = patches.value i a := if_pos covered

theorem apply_of_not_covers (outside : ¬ patches.covers i a) : patches.apply f i a = f a := if_neg outside

theorem foldl_apply_of_outside (outside : ∀ i ∈ order, ¬ patches.covers i a) :
    order.foldl patches.apply f a = f a := by
  induction order generalizing f with
  | nil => rfl
  | cons i order ih =>
    obtain ⟨here, later⟩ := List.forall_mem_cons.mp outside
    exact (ih later).trans (apply_of_not_covers here)

theorem foldl_apply_of_covers (apart : order.Pairwise patches.Apart) (among : i ∈ order)
    (covered : patches.covers i a) : order.foldl patches.apply f a = patches.value i a := by
  induction order generalizing f with
  | nil => cases among
  | cons j order ih =>
    obtain ⟨first, rest⟩ := List.pairwise_cons.mp apart
    rcases List.mem_cons.mp among with rfl | later
    · exact (foldl_apply_of_outside fun k there => first k there a covered).trans (apply_of_covers covered)
    · exact ih rest later

end Patches

end RiscvVp.Lib
