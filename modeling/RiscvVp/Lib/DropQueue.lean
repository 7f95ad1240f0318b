/-
# RiscvVp.Lib.DropQueue -- a queue that drops its oldest element

A queue of bounded length takes every element that is pushed; where it is full, the oldest one makes
room.  What was popped and what is left are in the order in which they were pushed, and they are all
of it if and only if the consumer was never further behind than the queue is long.
-/
import Mathlib.Data.List.Basic

namespace RiscvVp.Lib.DropQueue

set_option autoImplicit false

variable {α : Type}

/-- What came in and what went out. -/
inductive Event (α : Type) where
  | pushed (x : α)
  | popped (x : α)

/-- What came in, in its order. -/
def arrivals : List (Event α) → List α
  | [] => []
  | .pushed x :: events => x :: arrivals events
  | .popped _ :: events => arrivals events

/-- What went out, in its order. -/
def departures : List (Event α) → List α
  | [] => []
  | .pushed _ :: events => departures events
  | .popped x :: events => x :: departures events

/-- The new element at the end, and the first one away if there are too many. -/
def enqueue (n : Nat) (queue : List α) (x : α) : List α :=
  if n < (queue ++ [x]).length then (queue ++ [x]).tail else queue ++ [x]

/-- From the empty queue to one that has seen the events. -/
inductive Reaches (n : Nat) : List (Event α) → List α → Prop where
  | start : Reaches n [] []
  | pushed {events : List (Event α)} {queue : List α} (x : α) : Reaches n events queue →
      Reaches n (events ++ [.pushed x]) (enqueue n queue x)
  | popped {events : List (Event α)} {x : α} {queue : List α} : Reaches n events (x :: queue) →
      Reaches n (events ++ [.popped x]) queue

/-- The consumer was never more than `n` elements behind. -/
def Paced (n : Nat) (events : List (Event α)) : Prop :=
  ∀ before, before <+: events → (arrivals before).length ≤ (departures before).length + n

variable {n : Nat} {events : List (Event α)} {event : Event α} {queue : List α} {x : α}

@[simp] theorem arrivals_pushed : arrivals (events ++ [.pushed x]) = arrivals events ++ [x] := by
  induction events with
  | nil => rfl
  | cons event events ih => cases event <;> simp [arrivals, ih]

@[simp] theorem arrivals_popped : arrivals (events ++ [.popped x]) = arrivals events := by
  induction events with
  | nil => rfl
  | cons event events ih => cases event <;> simp [arrivals, ih]

@[simp] theorem departures_pushed : departures (events ++ [.pushed x]) = departures events := by
  induction events with
  | nil => rfl
  | cons event events ih => cases event <;> simp [departures, ih]

@[simp] theorem departures_popped : departures (events ++ [.popped x]) = departures events ++ [x] := by
  induction events with
  | nil => rfl
  | cons event events ih => cases event <;> simp [departures, ih]

theorem paced_concat : Paced n (events ++ [event]) ↔ Paced n events ∧
    (arrivals (events ++ [event])).length ≤ (departures (events ++ [event])).length + n := by
  constructor
  · intro paced
    exact ⟨fun before first => paced before (first.trans (List.prefix_append _ _)), paced _ List.prefix_rfl⟩
  · rintro ⟨paced, last⟩ before first
    rcases List.prefix_concat_iff.mp first with rfl | first
    · exact last
    · exact paced before first

theorem enqueue_of_lt (room : queue.length < n) : enqueue n queue x = queue ++ [x] :=
  if_neg (by rw [List.length_append]; exact Nat.not_lt.mpr room)

theorem enqueue_of_le (full : n ≤ queue.length) : enqueue n queue x = (queue ++ [x]).tail :=
  if_pos (by rw [List.length_append]; exact Nat.lt_succ_of_le full)

namespace Reaches

theorem length_le (reaches : Reaches n events queue) : queue.length ≤ n := by
  induction reaches with
  | start => exact Nat.zero_le n
  | @pushed events queue x _ ih =>
    rcases Nat.lt_or_ge queue.length n with room | full
    · rw [enqueue_of_lt room, List.length_append]
      exact room
    · rw [enqueue_of_le full, List.length_tail, List.length_append]
      exact ih
  | popped _ ih => exact Nat.le_of_succ_le ih

/-- What is left are the latest ones. -/
theorem suffix (reaches : Reaches n events queue) : queue <:+ arrivals events := by
  induction reaches with
  | start => exact List.suffix_rfl
  | @pushed events queue x _ ih =>
    have behind : queue ++ [x] <:+ arrivals (events ++ [.pushed x]) := by
      obtain ⟨gone, same⟩ := ih
      exact ⟨gone, by rw [arrivals_pushed, ← same, List.append_assoc]⟩
    unfold enqueue
    split
    · exact (List.tail_suffix _).trans behind
    · exact behind
  | @popped events x queue _ ih =>
    rw [arrivals_popped]
    exact (List.suffix_cons x queue).trans ih

/-- Nothing is made up, doubled or put in another order. -/
theorem sublist (reaches : Reaches n events queue) :
    (departures events ++ queue).Sublist (arrivals events) := by
  induction reaches with
  | start => exact List.Sublist.refl []
  | @pushed events queue x _ ih =>
    have behind : (departures events ++ (queue ++ [x])).Sublist (arrivals events ++ [x]) := by
      rw [← List.append_assoc]
      exact ih.append (List.Sublist.refl [x])
    rw [arrivals_pushed, departures_pushed]
    unfold enqueue
    split
    · exact ((List.Sublist.refl _).append (List.tail_sublist _)).trans behind
    · exact behind
  | @popped events x queue _ ih =>
    rw [arrivals_popped, departures_popped, List.append_assoc]
    exact ih

/-- Nothing is lost, if and only if the consumer keeps up. -/
theorem complete_iff (reaches : Reaches n events queue) :
    departures events ++ queue = arrivals events ↔ Paced n events := by
  induction reaches with
  | start =>
    refine iff_of_true rfl fun before first => ?_
    rw [List.prefix_nil.mp first]
    exact Nat.zero_le _
  | @pushed events queue x reaches ih =>
    have length := reaches.sublist.length_le
    rw [paced_concat, ← ih, arrivals_pushed, departures_pushed]
    rw [List.length_append] at length
    rcases Nat.lt_or_ge queue.length n with room | full
    · rw [enqueue_of_lt room, ← List.append_assoc, List.append_left_inj]
      refine (and_iff_left_of_imp fun complete => ?_).symm
      have total := congrArg List.length complete
      simp only [List.length_append, List.length_singleton] at total ⊢
      omega
    · -- the oldest one is gone, and what is left is too short for ever
      rw [enqueue_of_le full]
      refine iff_of_false (fun complete => ?_) fun ⟨complete, kept⟩ => ?_
      · have total := congrArg List.length complete
        simp only [List.length_append, List.length_tail, List.length_singleton] at total
        omega
      · have total := congrArg List.length complete
        simp only [List.length_append, List.length_singleton] at total kept
        omega
  | @popped events x queue reaches ih =>
    have length := reaches.length_le
    rw [paced_concat, ← ih, arrivals_popped, departures_popped, List.append_assoc]
    refine (and_iff_left_of_imp fun complete => ?_).symm
    have total := congrArg List.length complete
    simp only [List.length_append, List.length_cons] at total length ⊢
    omega

end Reaches

end RiscvVp.Lib.DropQueue
