/-
# RiscvVp.Plic.Fe310Claims -- the claim protocol of the FE310 controller with one core

A claim returns the interrupt that is `Chosen` and takes its pending bit, and nothing else sets
a pending bit but a trigger.  So a trigger is claimed at most once: `Accounted` keeps, along
every run, one trigger for each claim and one more for each bit that is pending.
-/
import RiscvVp.Plic.Fe310Steps

namespace RiscvVp.Fe310

set_option autoImplicit false

open Lib

variable {p : Params} {s t : Plic} {hart : Nat}

namespace Plic

/-- An interrupt that a claim may return; the threshold plays no part. -/
def Claimable (s : Plic) (hart i : Nat) : Prop :=
  s.enabled hart i = true ∧ s.pending i = true ∧ s.priority i ≠ 0#32

/-- The best interrupt of a hart. -/
structure Chosen (p : Params) (s : Plic) (hart i : Nat) : Prop where
  mem : i ∈ p.ids
  claimable : s.Claimable hart i
  highest : ∀ j ∈ p.ids, s.Claimable hart j → s.priority j ≤ s.priority i
  first : ∀ j ∈ p.ids, s.Claimable hart j → s.priority j = s.priority i → i ≤ j

theorem claimPriority_pos_iff {i : Nat} : 0 < s.claimPriority hart false i ↔ s.Claimable hart i := by
  unfold claimPriority Claimable
  by_cases candidate : s.enabled hart i = true ∧ s.pending i = true
  case neg =>
    rw [if_neg (fun both => candidate ⟨both.1, both.2.1⟩)]
    exact ⟨fun zero => absurd zero (Nat.lt_irrefl 0), fun all => absurd ⟨all.1, all.2.1⟩ candidate⟩
  case pos =>
    rw [if_pos ⟨candidate.1, candidate.2, fun absurd => by cases absurd⟩, Nat.pos_iff_ne_zero]
    have zero : (s.priority i).toNat ≠ 0 ↔ s.priority i ≠ 0#32 := by
      rw [ne_eq, ne_eq, BitVec.toNat_eq, BitVec.toNat_ofNat, Nat.zero_mod]
    rw [zero]
    exact ⟨fun positive => ⟨candidate.1, candidate.2, positive⟩, fun all => all.2.2⟩

theorem claimPriority_of_claimable {i : Nat} (claimable : s.Claimable hart i) :
    s.claimPriority hart false i = (s.priority i).toNat := by
  unfold claimPriority
  rw [if_pos ⟨claimable.1, claimable.2.1, fun absurd => by cases absurd⟩]

theorem chosen_of_wins {i : Nat} (wins : Wins (s.claimPriority hart false) p.ids i) :
    Chosen p s hart i := by
  have claimable := claimPriority_pos_iff.mp wins.positive
  refine ⟨wins.mem, claimable, ?_, ?_⟩
  · intro j known other
    have below := wins.highest j known
    rw [claimPriority_of_claimable other, claimPriority_of_claimable claimable] at below
    exact BitVec.le_def.mpr below
  · intro j known other same
    refine wins.first j known ?_
    rw [claimPriority_of_claimable other, claimPriority_of_claimable claimable, same]

/-- The loop of a claim returns 0 or the best interrupt. -/
theorem best_cases (p : Params) (s : Plic) (hart : Nat) : s.best p hart false = 0 ∧ (∀ j ∈ p.ids, ¬ s.Claimable hart j) ∨
    Chosen p s hart (s.best p hart false) := by
  rcases arbiter_best (s.claimPriority hart false) p.sorted_ids with ⟨zero, none⟩ | wins
  · refine .inl ⟨zero, fun j known claimable => ?_⟩
    have positive := claimPriority_pos_iff.mpr claimable
    have nothing := none j known
    omega
  · exact .inr (chosen_of_wins wins)

theorem best_eq_zero_iff : s.best p hart false = 0 ↔ ∀ j ∈ p.ids, ¬ s.Claimable hart j := by
  rcases best_cases p s hart with ⟨zero, none⟩ | chosen
  · exact ⟨fun _ => none, fun _ => zero⟩
  · have above := (Params.mem_ids.mp chosen.mem).1
    refine ⟨fun zero => by omega, fun none => ?_⟩
    exact absurd chosen.claimable (none _ chosen.mem)

end Plic

/-! ## Counting -/

/-- A claim read that returned `i`. -/
def isClaim (i : Nat) : Input × Answer → Bool
  | (.read n addr, some ⟨_, data⟩) => n = 4 && addr = claimAddr 0 && data.toNat = i
  | _ => false

def isTrigger (i : Nat) : Input × Answer → Bool
  | (.trigger irqId, _) => irqId = i
  | _ => false

def claims (log : List (Input × Answer)) (i : Nat) : Nat := log.countP (isClaim i)

def triggers (log : List (Input × Answer)) (i : Nat) : Nat := log.countP (isTrigger i)

/-- A trigger for each claim, and one for a bit that is pending still. -/
structure Accounted (p : Params) (log : List (Input × Answer)) (s : Plic) : Prop where
  zero : s.pending 0 = false
  counts : ∀ i ≠ 0, claims log i + (if i < p.numberInterrupts ∧ s.pending i = true then 1 else 0) ≤
    triggers log i

theorem accounted_init : Accounted p [] (init p) := by
  have clear (i : Nat) : (init p).pending i = false := by
    have zero : (init p).pendingInterrupts.word (i / 32) = 0#32 := ByteMemory.word_zero _
    unfold Plic.pending ByteMemory.bit
    rw [zero, BitVec.getLsbD_zero]
  refine ⟨clear 0, fun i _ => ?_⟩
  rw [if_neg (by simp [clear])]
  exact Nat.le_refl 0

/-- A step that neither claims nor triggers. -/
theorem accounted_of_same {log : List (Input × Answer)} {a : Input} {b : Answer}
    (accounted : Accounted p log s) (pending : ∀ j, t.pending j = s.pending j)
    (claim : ∀ i, isClaim i (a, b) = false) (trigger : ∀ i, isTrigger i (a, b) = false) :
    Accounted p (log ++ [(a, b)]) t := by
  refine ⟨(pending 0).trans accounted.zero, fun i some => ?_⟩
  have counts := accounted.counts i some
  unfold claims triggers at counts ⊢
  rw [List.countP_append, List.countP_append, List.countP_singleton, List.countP_singleton, claim,
    trigger, pending]
  exact counts

theorem accounted_trigger {log : List (Input × Answer)} {irqId : Nat} (accounted : Accounted p log s)
    (above : 0 < irqId) (known : irqId < p.numberInterrupts) :
    Accounted p (log ++ [(.trigger irqId, none)]) { s.setPending irqId true with eRun := true } := by
  have interrupts := p.interrupts
  have pending {j : Nat} (small : j < 2 ^ 61) :
      ({ s.setPending irqId true with eRun := true } : Plic).pending j =
        if j = irqId then true else s.pending j :=
    Plic.pending_setPending (by omega) small
  refine ⟨?_, fun i some => ?_⟩
  · rw [pending (by decide), if_neg (by omega)]
    exact accounted.zero
  · have counts := accounted.counts i some
    unfold claims triggers at counts ⊢
    rw [List.countP_append, List.countP_append, List.countP_singleton, List.countP_singleton]
    by_cases same : irqId = i
    · subst same
      simp only [isClaim, isTrigger, decide_true, Bool.false_eq_true, ↓reduceIte]
      split at counts <;> split <;> omega
    · simp only [isClaim, isTrigger, same, decide_false, Bool.false_eq_true, ↓reduceIte]
      by_cases inside : i < p.numberInterrupts
      · rw [pending (by omega), if_neg (Ne.symm same)]
        exact counts
      · rw [if_neg (fun both => inside both.1)] at counts ⊢
        exact counts

theorem accounted_claim {log : List (Input × Answer)} (accounted : Accounted p log s) :
    Accounted p (log ++ [(.read 4 (claimAddr 0), some ⟨4, BitVec.ofNat 32 (s.best p 0 false)⟩)])
      (s.claimed p 0) := by
  have interrupts := p.interrupts
  have best := Plic.best_lt p s 0 false
  refine ⟨?_, fun i some => ?_⟩
  · rw [Plic.pending_claimed (by decide)]
    split
    · rfl
    · exact accounted.zero
  · have counts := accounted.counts i some
    have answer : (BitVec.ofNat 32 (s.best p 0 false)).toNat = s.best p 0 false := by
      rw [BitVec.toNat_ofNat]
      omega
    unfold claims triggers at counts ⊢
    rw [List.countP_append, List.countP_append, List.countP_singleton, List.countP_singleton]
    simp only [isClaim, isTrigger, answer, decide_true, Bool.true_and, Bool.false_eq_true, ↓reduceIte]
    by_cases same : s.best p 0 false = i
    · -- the bit was pending, so a trigger is left over for this claim
      rcases Plic.best_cases p s 0 with ⟨zero, -⟩ | chosen
      · omega
      · rw [same] at chosen
        rw [if_pos ⟨by omega, chosen.claimable.2.1⟩] at counts
        rw [decide_eq_true same, if_pos rfl, if_neg, Nat.add_zero]
        · exact counts
        · rintro ⟨-, pending⟩
          rw [Plic.pending_claimed (by omega), if_pos same.symm] at pending
          cases pending
    · rw [decide_eq_false same, if_neg Bool.false_ne_true, Nat.add_zero]
      by_cases inside : i < p.numberInterrupts
      · rw [Plic.pending_claimed (by omega), if_neg (Ne.symm same)]
        exact counts
      · rw [if_neg (fun both => inside both.1)] at counts ⊢
        exact counts

theorem accounted_step {log : List (Input × Answer)} {a : Input} {b : Answer} (single : p.numberCores = 1)
    (accounted : Accounted p log s) (ran : step p s a = .ok (b, t)) :
    Accounted p (log ++ [(a, b)]) t := by
  cases step_did single ran with
  | trigger above known => exact accounted_trigger accounted above known
  | read other =>
    refine accounted_of_same accounted (fun _ => rfl) (fun i => ?_) fun _ => rfl
    simp only [isClaim, Bool.and_eq_false_iff, decide_eq_false_iff_not]
    exact .inl (Decidable.not_and_iff_or_not.mp other)
  | claim => exact accounted_claim accounted
  | write other plain =>
    have frame := route_plain_frame plain
    refine accounted_of_same accounted (fun j => ?_) (fun _ => rfl) fun _ => rfl
    unfold Plic.pending
    rw [frame.1]
  | complete => exact accounted_of_same accounted (fun _ => rfl) (fun _ => rfl) fun _ => rfl
  | again => exact accounted_of_same accounted (fun _ => rfl) (fun _ => rfl) fun _ => rfl
  | run => exact accounted_of_same accounted (fun _ => Plic.pending_activated) (fun _ => rfl) fun _ => rfl

theorem accounted_runs {log : List (Input × Answer)} (single : p.numberCores = 1)
    (run : Runs (step p) (fun _ _ => True) (init p) log s) : Accounted p log s :=
  run.invariant_log accounted_init fun accounted _ ran => accounted_step single accounted ran

/-- A claim of hart 0 returns the best interrupt and takes its pending bit alone. -/
theorem claim_returns (single : p.numberCores = 1) (zero : s.pending 0 = false) :
    ∃ i t, i < 2 ^ 32 ∧ step p s (.read 4 (claimAddr 0)) = .ok (some ⟨4, BitVec.ofNat 32 i⟩, t) ∧
      (i = 0 ↔ ∀ j ∈ p.ids, ¬ s.Claimable 0 j) ∧ (i ≠ 0 → Plic.Chosen p s 0 i) ∧
      (∀ j < 32 * p.numberInterruptEntries, t.pending j = if i ≠ 0 ∧ j = i then false else s.pending j) ∧
      t.claimResponse 0 = BitVec.ofNat 32 i := by
  have interrupts := p.interrupts
  have words : p.numberInterruptEntries ≤ 0x80000 := by
    have apart := p.apart
    have enough := Nat.le_mul_of_pos_right p.numberInterruptEntries p.core
    omega
  have best := Plic.best_lt p s 0 false
  refine ⟨s.best p 0 false, s.claimed p 0, by omega, ?_, Plic.best_eq_zero_iff, ?_, ?_, claimResponse_claimed⟩
  · rw [step_claim p.core, if_pos (by omega), claimResponse_claimed]
  · intro found
    rcases Plic.best_cases p s 0 with ⟨zero, -⟩ | chosen
    · exact absurd zero found
    · exact chosen
  · intro j inside
    rw [Plic.pending_claimed (by omega)]
    by_cases same : j = s.best p 0 false
    · by_cases none : s.best p 0 false = 0
      · rw [if_pos same, if_neg (fun both => both.1 none), same, none, zero]
      · rw [if_pos same, if_pos ⟨none, same⟩]
    · rw [if_neg same, if_neg (fun both => same both.2)]

/-- A claim behind any run returns the best interrupt and takes its pending bit alone, and no
interrupt has been claimed more often than it was triggered. -/
theorem claim_protocol {log : List (Input × Answer)} (single : p.numberCores = 1)
    (run : Runs (step p) (fun _ _ => True) (init p) log s) :
    (∃ i t, i < 2 ^ 32 ∧ step p s (.read 4 (claimAddr 0)) = .ok (some ⟨4, BitVec.ofNat 32 i⟩, t) ∧
      (i = 0 ↔ ∀ j ∈ p.ids, ¬ s.Claimable 0 j) ∧ (i ≠ 0 → Plic.Chosen p s 0 i) ∧
      ∀ j < 32 * p.numberInterruptEntries, t.pending j = if i ≠ 0 ∧ j = i then false else s.pending j) ∧
    ∀ i ≠ 0, claims log i ≤ triggers log i := by
  have accounted := accounted_runs single run
  obtain ⟨i, t, small, ran, none, chosen, pending, -⟩ := claim_returns single accounted.zero
  refine ⟨⟨i, t, small, ran, none, chosen, pending⟩, fun i some => ?_⟩
  have counts := accounted.counts i some
  omega

/-- Interrupt 3 is enabled, triggered and claimed, and triggered again. -/
theorem claim_protocol_hifive : ∃ log s,
    Runs (step hifive) (fun _ _ => True) (init hifive) log s ∧ triggers log 3 = 2 ∧ claims log 3 = 1 ∧
      s.pending 3 = true ∧
      (∃ i t, step hifive s (.read 4 (claimAddr 0)) = .ok (some ⟨4, BitVec.ofNat 32 i⟩, t) ∧
        (i = 0 ↔ ∀ j ∈ hifive.ids, ¬ s.Claimable 0 j)) ∧ claims log 3 ≤ triggers log 3 := by
  have run : Runs (step hifive) (fun _ _ => True) (init hifive)
      [(.write 4 0xC 7#32, none), (.write 4 0x2000 0x8#32, none), (.trigger 3, none),
        (.read 4 (claimAddr 0), some ⟨4, 3#32⟩), (.trigger 3, none)] _ :=
    ((((Runs.start.next trivial rfl).next trivial rfl).next trivial rfl).next trivial rfl).next trivial rfl
  obtain ⟨⟨i, t, -, ran, zero, -⟩, counts⟩ := claim_protocol rfl run
  exact ⟨_, _, run, by decide +kernel, by decide +kernel, by decide +kernel, ⟨i, t, ran, zero⟩,
    counts 3 (by decide)⟩

end RiscvVp.Fe310
