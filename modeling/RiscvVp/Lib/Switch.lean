/-
# RiscvVp.Lib.Switch -- a C `switch` whose arms all return

`switch x arms otherwise` is the value of the first arm labelled `x`, or
`otherwise`.  A property of every arm and of the default is a property of the
value, one arm at a time (`switch_nil_of`, `switch_cons_of`); when the scrutinee
is known the arm is found by evaluating the labels.
-/
import Mathlib.Data.List.Basic

namespace RiscvVp.Lib

set_option autoImplicit false

universe u v

variable {κ : Type u} {β : Type v} [DecidableEq κ]

def switch (x : κ) : List (κ × β) → β → β
  | [], otherwise => otherwise
  | (label, value) :: arms, otherwise =>
      if x = label then value else switch x arms otherwise

@[simp] theorem switch_nil (x : κ) (otherwise : β) : switch x [] otherwise = otherwise := rfl

theorem switch_cons (x label : κ) (value otherwise : β) (arms : List (κ × β)) :
    switch x ((label, value) :: arms) otherwise =
      if x = label then value else switch x arms otherwise := rfl

theorem switch_nil_of {P : β → Prop} {x : κ} {otherwise : β} (default : P otherwise) :
    P (switch x [] otherwise) := default

/-- A property of the first arm, where the label is the scrutinee, and of the switch
over the rest. -/
theorem switch_cons_of {P : β → Prop} {x label : κ} {value otherwise : β} {arms : List (κ × β)}
    (arm : x = label → P value) (rest : P (switch x arms otherwise)) :
    P (switch x ((label, value) :: arms) otherwise) := by
  rw [switch_cons]
  split
  case isTrue same => exact arm same
  case isFalse => exact rest

/-- The same for two switches over the same labels. -/
theorem switch_cons_of₂ {γ : Type v} {P : β → γ → Prop} {x label : κ} {value otherwise : β} {value' otherwise' : γ}
    {arms : List (κ × β)} {arms' : List (κ × γ)} (arm : x = label → P value value')
    (rest : P (switch x arms otherwise) (switch x arms' otherwise')) :
    P (switch x ((label, value) :: arms) otherwise) (switch x ((label, value') :: arms') otherwise') := by
  rw [switch_cons, switch_cons]
  split
  case isTrue same => exact arm same
  case isFalse => exact rest

end RiscvVp.Lib
