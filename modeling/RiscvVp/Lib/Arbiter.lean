/-
# RiscvVp.Lib.Arbiter -- the first of the highest priority

A loop over candidates in order that keeps the best one so far: a candidate replaces it when its
priority is higher.  What is left is the first candidate of the highest priority, or 0 when no
candidate has a priority above 0.
-/
import Mathlib.Data.List.Basic

namespace RiscvVp.Lib

set_option autoImplicit false

variable {prio : Nat → Nat}

/-- One turn of the loop; the priority 0 stands for "no candidate". -/
def arbitrate (prio : Nat → Nat) (best : Nat × Nat) (i : Nat) : Nat × Nat :=
  if best.2 < prio i then (i, prio i) else best

/-- `i` wins among `candidates`. -/
structure Wins (prio : Nat → Nat) (candidates : List Nat) (i : Nat) : Prop where
  mem : i ∈ candidates
  positive : 0 < prio i
  highest : ∀ j ∈ candidates, prio j ≤ prio i
  first : ∀ j ∈ candidates, prio j = prio i → i ≤ j

theorem Wins.unique {candidates : List Nat} {i j : Nat} (first : Wins prio candidates i)
    (second : Wins prio candidates j) : i = j := by
  have same : prio i = prio j :=
    Nat.le_antisymm (second.highest i first.mem) (first.highest j second.mem)
  exact Nat.le_antisymm (first.first j second.mem same.symm) (second.first i first.mem same)

/-- What the loop knows behind `seen`. -/
def Best (prio : Nat → Nat) (seen : List Nat) (best : Nat × Nat) : Prop :=
  best.1 = 0 ∧ best.2 = 0 ∧ (∀ j ∈ seen, prio j = 0) ∨
    Wins prio seen best.1 ∧ best.2 = prio best.1

theorem best_arbitrate {seen : List Nat} {best : Nat × Nat} {i : Nat} (later : ∀ j ∈ seen, j ≤ i)
    (known : Best prio seen best) : Best prio (seen ++ [i]) (arbitrate prio best i) := by
  unfold arbitrate
  split
  case isTrue higher =>
    refine .inr ⟨⟨by simp, Nat.lt_of_le_of_lt (Nat.zero_le _) higher, ?_, ?_⟩, rfl⟩
    · intro j among
      rcases List.mem_append.mp among with old | new
      · rcases known with ⟨-, -, none⟩ | ⟨wins, top⟩
        · simp [none j old]
        · exact Nat.le_of_lt (Nat.lt_of_le_of_lt (top ▸ wins.highest j old) higher)
      · simp [List.mem_singleton.mp new]
    · intro j among same
      have equal : prio j = prio i := same
      rcases List.mem_append.mp among with old | new
      · rcases known with ⟨-, zero, none⟩ | ⟨wins, top⟩
        · have lower := none j old
          omega
        · have below := wins.highest j old
          omega
      · exact Nat.le_of_eq (List.mem_singleton.mp new).symm
  case isFalse lower =>
    rcases known with ⟨id, zero, none⟩ | ⟨wins, top⟩
    · refine .inl ⟨id, zero, ?_⟩
      intro j among
      rcases List.mem_append.mp among with old | new
      · exact none j old
      · rw [List.mem_singleton.mp new]
        omega
    · refine .inr ⟨⟨by simp [wins.mem], wins.positive, ?_, ?_⟩, top⟩
      · intro j among
        rcases List.mem_append.mp among with old | new
        · exact wins.highest j old
        · rw [List.mem_singleton.mp new]
          omega
      · intro j among same
        rcases List.mem_append.mp among with old | new
        · exact wins.first j old same
        · rw [List.mem_singleton.mp new]
          exact later _ wins.mem

theorem best_foldl {seen rest : List Nat} {best : Nat × Nat} (sorted : (seen ++ rest).Pairwise (· ≤ ·))
    (known : Best prio seen best) : Best prio (seen ++ rest) (rest.foldl (arbitrate prio) best) := by
  induction rest generalizing seen best with
  | nil => simpa using known
  | cons i rest ih =>
    have later : ∀ j ∈ seen, j ≤ i := by
      intro j among
      exact (List.pairwise_append.mp sorted).2.2 j among i List.mem_cons_self
    rw [List.append_cons] at sorted ⊢
    exact ih sorted (best_arbitrate later known)

/-- The loop over candidates in order. -/
def arbiter (prio : Nat → Nat) (candidates : List Nat) : Nat :=
  (candidates.foldl (arbitrate prio) (0, 0)).1

theorem arbiter_best (prio : Nat → Nat) {candidates : List Nat} (sorted : candidates.Pairwise (· ≤ ·)) :
    arbiter prio candidates = 0 ∧ (∀ j ∈ candidates, prio j = 0) ∨
      Wins prio candidates (arbiter prio candidates) := by
  have best : Best prio ([] ++ candidates) (candidates.foldl (arbitrate prio) (0, 0)) :=
    best_foldl sorted (.inl ⟨rfl, rfl, by simp⟩)
  rcases best with ⟨id, -, none⟩ | ⟨wins, -⟩
  · exact .inl ⟨id, none⟩
  · exact .inr wins

/-- The loop finds a candidate exactly when there is one. -/
theorem arbiter_ne_zero_iff (prio : Nat → Nat) {candidates : List Nat} (sorted : candidates.Pairwise (· ≤ ·))
    (positive : ∀ i ∈ candidates, 0 < i) :
    arbiter prio candidates ≠ 0 ↔ ∃ i ∈ candidates, 0 < prio i := by
  rcases arbiter_best prio sorted with ⟨zero, none⟩ | wins
  · refine ⟨fun some => absurd zero some, ?_⟩
    rintro ⟨i, among, higher⟩
    have lower := none i among
    omega
  · refine ⟨fun _ => ⟨_, wins.mem, wins.positive⟩, fun _ => ?_⟩
    have above := positive _ wins.mem
    omega

/-- A loop whose turns all succeed. -/
theorem foldlM_eq_ok {ε α β : Type} {f : β → α → Except ε β} {g : β → α → β} {xs : List α} (b : β)
    (turn : ∀ b, ∀ x ∈ xs, f b x = .ok (g b x)) : xs.foldlM f b = .ok (xs.foldl g b) := by
  induction xs generalizing b with
  | nil => rfl
  | cons x xs ih =>
    rw [List.foldlM_cons, turn b x List.mem_cons_self, List.foldl_cons]
    exact ih _ fun b y among => turn b y (List.mem_cons_of_mem _ among)

/-- What a loop that ran to its end has established, turn by turn. -/
theorem foldlM_ok {ε α β : Type} {f : β → α → Except ε β} {P : List α → β → Prop} {xs : List α} {b c : β}
    (start : P [] b) (turn : ∀ {seen x b c}, P seen b → x ∈ xs → f b x = .ok c → P (seen ++ [x]) c)
    (ran : xs.foldlM f b = .ok c) : P xs c := by
  suffices general : ∀ seen rest b, seen ++ rest = xs → P seen b → rest.foldlM f b = .ok c → P xs c from
    general [] xs b rfl start ran
  intro seen rest
  induction rest generalizing seen with
  | nil =>
    intro b whole known ended
    cases ended
    rw [← whole, List.append_nil]
    exact known
  | cons x rest ih =>
    intro b whole known ended
    rw [List.foldlM_cons] at ended
    cases one : f b x with
    | error e =>
      rw [one] at ended
      cases ended
    | ok d =>
      rw [one] at ended
      refine ih (seen ++ [x]) d (by rw [← whole]; simp) ?_ ended
      exact turn known (by rw [← whole]; simp) one

/-- A loop runs to its end exactly when every turn can be taken, where that is decided by what
the turns keep. -/
theorem exists_foldlM_iff {ε α β : Type} {f : β → α → Except ε β} {I : β → Prop} {Fine : α → Prop}
    {xs : List α} {b : β} (start : I b) (keeps : ∀ {b x c}, I b → f b x = .ok c → I c)
    (turn : ∀ {b x}, I b → ((∃ c, f b x = .ok c) ↔ Fine x)) :
    (∃ c, xs.foldlM f b = .ok c) ↔ ∀ x ∈ xs, Fine x := by
  induction xs generalizing b with
  | nil => exact iff_of_true ⟨b, rfl⟩ (by simp)
  | cons x xs ih =>
    rw [List.foldlM_cons, List.forall_mem_cons, ← turn start]
    cases one : f b x with
    | error e =>
      refine iff_of_false ?_ ?_
      · rintro ⟨c, ended⟩
        cases ended
      · rintro ⟨⟨c, taken⟩, -⟩
        cases taken
    | ok d => exact (ih (keeps start one)).trans (and_iff_right ⟨d, rfl⟩).symm

/-- The error of a loop is that of a turn. -/
theorem foldlM_error {ε α β : Type} {f : β → α → Except ε β} {P : ε → Prop} {xs : List α} {b : β}
    {e : ε} (turn : ∀ {b x e}, x ∈ xs → f b x = .error e → P e) (ran : xs.foldlM f b = .error e) : P e := by
  induction xs generalizing b with
  | nil => cases ran
  | cons x xs ih =>
    rw [List.foldlM_cons] at ran
    cases one : f b x with
    | error e' =>
      rw [one] at ran
      cases ran
      exact turn List.mem_cons_self one
    | ok d =>
      rw [one] at ran
      exact ih (fun among => turn (List.mem_cons_of_mem _ among)) ran

end RiscvVp.Lib
