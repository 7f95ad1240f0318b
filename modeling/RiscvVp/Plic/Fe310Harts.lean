/-
# RiscvVp.Plic.Fe310Harts -- several harts at the FE310 controller

The controller is a template over the number of cores.  With more than one of them the harts get
in each other's way: rows of the enable words are one word long, a claim looks for hart 0 whoever
reads, and the number of a register is taken for the number of a hart.  `Independent` is what
the harts may expect of the controller, and it holds for one core only.
-/
import RiscvVp.Plic.Fe310Claims

namespace RiscvVp.Fe310

set_option autoImplicit false

open Lib

variable {p : Params} {s t : Plic}

/-- A hart's registers: its row of enable words, its threshold and its claim register. -/
def ownAddr (p : Params) (hart : Nat) (addr : BitVec 64) : Prop :=
  (∃ idx < p.numberInterruptEntries,
    addr = BitVec.ofNat 64 (0x2000 + 4 * (p.numberInterruptEntries * hart + idx))) ∨
  addr = BitVec.ofNat 64 (0x200000 + 8 * hart) ∨ addr = claimAddr hart

/-- An access of a hart to its registers. -/
def ownAccess (p : Params) (hart : Nat) : Input → Prop
  | .read n addr => n = 4 ∧ ownAddr p hart addr
  | .write n addr _ => n = 4 ∧ ownAddr p hart addr
  | _ => False

/-- A claim of `hart` returns and takes the best interrupt of its own, and leaves it in the
claim register. -/
def ClaimsOwn (p : Params) (s : Plic) (hart : Nat) : Prop :=
  ∃ i t, i < 2 ^ 32 ∧ step p s (.read 4 (claimAddr hart)) = .ok (some ⟨4, BitVec.ofNat 32 i⟩, t) ∧
    (i = 0 ↔ ∀ j ∈ p.ids, ¬ s.Claimable hart j) ∧ (i ≠ 0 → Plic.Chosen p s hart i) ∧
    (∀ j < 32 * p.numberInterruptEntries, t.pending j = if i ≠ 0 ∧ j = i then false else s.pending j) ∧
    t.claimResponse hart = BitVec.ofNat 32 i

/-- A completion of `hart` ends as its own interrupts and its own `hart_eip` say, and drives no
line but its own. -/
def CompletesOwn (p : Params) (s : Plic) (hart : Nat) (value : BitVec 32) : Prop :=
  (Plic.Deliverable p s hart ∧ s.hartEip hart = false ∧
    step p s (.write 4 (claimAddr hart) value) = .error (.device .hartEip)) ∨
  ∃ t, step p s (.write 4 (claimAddr hart) value) = .ok (none, t) ∧
    (t.line hart = true ↔ Plic.Deliverable p s hart) ∧ ∀ other ≠ hart, t.line other = s.line other

structure Independent (p : Params) : Prop where
  rows : ∀ h < p.numberCores, ∀ h' < p.numberCores, h ≠ h' →
    ∀ idx < p.numberInterruptEntries, ∀ idx' < p.numberInterruptEntries,
      Plic.enabledIndex h idx ≠ Plic.enabledIndex h' idx'
  claims : ∀ log s, Runs (step p) (fun _ _ => True) (init p) log s →
    ∀ h < p.numberCores, ClaimsOwn p s h
  completions : ∀ log s, Runs (step p) (fun _ _ => True) (init p) log s →
    ∀ h < p.numberCores, ∀ value, CompletesOwn p s h value
  accesses : ∀ log s, Runs (step p) (fun _ _ => True) (init p) log s →
    ∀ h < p.numberCores, ∀ h' < p.numberCores, h ≠ h' → ∀ a, ownAccess p h a →
      ∀ b t, step p s a = .ok (b, t) → ∀ i ∈ p.ids,
        t.enabled h' i = s.enabled h' i ∧ t.priority i = s.priority i

theorem completesOwn_single (single : p.numberCores = 1) (value : BitVec 32) : CompletesOwn p s 0 value := by
  have ran := step_completion (s := s) p.core (by omega) value
  have same := Plic.deliverable_setClaimResponse (p := p) (s := s) value
  by_cases something : Plic.Deliverable p s 0
  · rw [if_pos (same.mpr something)] at ran
    cases eip : s.hartEip 0 with
    | false =>
      rw [if_neg (by simp [eip])] at ran
      exact .inl ⟨something, eip, ran⟩
    | true =>
      rw [if_pos eip] at ran
      refine .inr ⟨_, ran, ⟨fun _ => something, fun _ => rfl⟩, fun other apart => ?_⟩
      exact if_neg apart
  · rw [if_neg (mt same.mp something)] at ran
    refine .inr ⟨_, ran, ⟨fun set => ?_, fun found => absurd found something⟩, fun other apart => ?_⟩
    · cases set
    · exact if_neg apart

/-- The second of two cores cannot claim at all. -/
theorem not_claimsOwn_two (two : p.numberCores = 2) : ¬ ClaimsOwn p (init p) 1 := by
  rintro ⟨i, t, -, ran, -⟩
  rw [step_claim (by omega), if_neg (by omega)] at ran
  cases ran

/-- With more cores the second one reads back what it wrote to its claim register. -/
theorem not_claimsOwn_more (more : 3 ≤ p.numberCores) :
    ∃ log s, Runs (step p) (fun _ _ => True) (init p) log s ∧ ¬ ClaimsOwn p s 1 := by
  have nothing : ¬ Plic.Deliverable p ((init p).setClaimResponse 1 5#32) (2 * 1) := by
    rintro ⟨i, -, enabled, -⟩
    have off := Plic.enabled_init p (2 * 1) i
    rw [show (init p).enabled (2 * 1) i = true from enabled] at off
    cases off
  have wrote := step_completion (s := init p) (show 1 < p.numberCores by omega) (by omega) 5#32
  rw [if_neg nothing] at wrote
  refine ⟨_, _, Runs.start.next trivial wrote, ?_⟩
  rintro ⟨i, t, small, ran, none, -⟩
  rw [step_claim (by omega), if_pos (by omega)] at ran
  obtain ⟨answer, -⟩ := Prod.mk.inj (Except.ok.inj ran)
  have five : BitVec.ofNat 32 i = 5#32 := by
    have word := eq_of_heq (Sigma.mk.inj (Option.some.inj answer)).2
    refine word.symm.trans ((Plic.claimResponse_setClaimResponse (by decide) (by decide)).trans ?_)
    exact (Plic.claimResponse_setClaimResponse (s := init p) (by decide) (by decide)).trans (if_pos rfl)
  have zero : i = 0 := by
    refine none.mpr fun j _ claimable => ?_
    have off := Plic.enabled_init p 1 j
    rw [show (init p).enabled 1 j = true from claimable.1] at off
    cases off
  rw [zero] at five
  exact absurd five (by decide)

/-- The harts are independent of each other exactly where there is one. -/
theorem independent_iff : Independent p ↔ p.numberCores = 1 := by
  constructor
  · intro independent
    have core := p.core
    by_contra other
    rcases Nat.lt_or_ge p.numberCores 3 with two | more
    · exact not_claimsOwn_two (by omega) (independent.claims _ _ .start 1 (by omega))
    · obtain ⟨log, s, run, fails⟩ := not_claimsOwn_more more
      exact fails (independent.claims log s run 1 (by omega))
  · intro single
    refine ⟨?_, ?_, ?_, ?_⟩
    · intro h here h' there apart
      omega
    · intro log s run h here
      obtain rfl : h = 0 := by omega
      exact claim_returns single (accounted_runs single run).zero
    · intro log s run h here value
      obtain rfl : h = 0 := by omega
      exact completesOwn_single single value
    · intro log s run h here h' there apart
      omega

/-- The HiFive controller with a second core. -/
def dual : Params :=
  { hifive with
    numberCores := 2
    core := by decide
    cores := by decide
    apart := by decide }

theorem not_independent_dual : ¬ Independent dual := by
  intro independent
  exact not_claimsOwn_two rfl (independent.claims _ _ .start 1 (by decide))

end RiscvVp.Fe310
