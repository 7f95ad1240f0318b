/-
# RiscvVp.Plic.Fu540Steps -- what the controller of the FU540 does in a step

The search for an interrupt finds the first of the highest priority, and fails when it comes to
the last interrupt, which has no priority.  An activation of `run` sets the lines of the contexts
that are `Chosen`; a write is a `store` to the registers, and a completion clears a line behind it.
-/
import RiscvVp.Plic.Fu540

namespace RiscvVp.Fu540

set_option autoImplicit false

open Lib

variable {harts : Nat} {s t : Plic} {c : Context}

/-- The interrupts with a priority: `interrupt_priorities` has no place for the last one. -/
def ids : List Nat := List.range' 1 (numirq - 1)

/-- A context that has registers. -/
def Context.Exists (c : Context) : Prop := ¬ (c.hart = 0 ∧ c.level = .supervisor)

instance : Decidable c.Exists := inferInstanceAs (Decidable (¬ _))

namespace Plic

/-- Something above the threshold of the context. -/
def Deliverable (s : Plic) (c : Context) : Prop :=
  ∃ irq ∈ ids, s.isEnabled c irq = true ∧ s.isPending irq = true ∧ s.getThreshold c < s.priority irq

instance : Decidable (s.Deliverable c) := inferInstanceAs (Decidable (∃ irq ∈ ids, _))

/-- Something that `run` would signal to the context, which may be at the threshold. -/
def Selected (s : Plic) (c : Context) : Prop :=
  ∃ irq ∈ ids, s.isEnabled c irq = true ∧ s.isPending irq = true ∧
    ¬ s.priority irq < s.getThreshold c ∧ s.priority irq ≠ 0#32

instance : Decidable (s.Selected c) := inferInstanceAs (Decidable (∃ irq ∈ ids, _))

theorem selected_of_deliverable (something : s.Deliverable c) : s.Selected c := by
  obtain ⟨irq, known, enabled, pending, above⟩ := something
  refine ⟨irq, known, enabled, pending, ?_, ?_⟩
  · rw [BitVec.lt_def] at above ⊢
    omega
  · intro zero
    rw [zero] at above
    exact absurd above (BitVec.not_lt_zero)

/-- The last interrupt is enabled and pending; `interrupt_priorities` has no place for it. -/
def LastCandidate (s : Plic) (c : Context) : Prop := s.isEnabled c numirq = true ∧ s.isPending numirq = true

instance : Decidable (s.LastCandidate c) := inferInstanceAs (Decidable (_ ∧ _))

/-! ## Arbitration -/

/-- The priority of an interrupt among those that `c` may get, 0 when it may not. -/
def claimPriority (s : Plic) (c : Context) (ignth : Bool) (irq : Nat) : Nat :=
  if s.isEnabled c irq = true ∧ s.isPending irq = true ∧ irq < numirq ∧
      ¬ (ignth = false ∧ s.priority irq < s.getThreshold c) then (s.priority irq).toNat
  else 0

theorem visit_ok {ignth : Bool} {irq : Nat} {b d : Nat × Nat} (ran : s.visit c ignth b irq = .ok d) :
    d = arbitrate (s.claimPriority c ignth) b irq := by
  unfold visit at ran
  unfold arbitrate
  split at ran
  case isFalse other =>
    rw [Bool.and_eq_true] at other
    have zero : s.claimPriority c ignth irq = 0 := if_neg fun all => other ⟨all.1, all.2.1⟩
    rw [zero, if_neg (Nat.not_lt_zero _)]
    exact (Except.ok.inj ran).symm
  case isTrue candidate =>
    rw [Bool.and_eq_true] at candidate
    split at ran
    case isFalse => cases ran
    case isTrue known =>
      split at ran
      case isTrue below =>
        have zero : s.claimPriority c ignth irq = 0 := if_neg fun all => all.2.2.2 below
        rw [zero, if_neg (Nat.not_lt_zero _)]
        exact (Except.ok.inj ran).symm
      case isFalse fine =>
        have prio : s.claimPriority c ignth irq = (s.priority irq).toNat :=
          if_pos ⟨candidate.1, candidate.2, known, fine⟩
        rw [prio]
        exact (Except.ok.inj ran).symm

theorem nextPendingIrq_ok {ignth : Bool} {irq : Nat} (ran : s.nextPendingIrq c ignth = .ok irq) :
    irq = arbiter (s.claimPriority c ignth) (List.range' 1 numirq) := by
  unfold nextPendingIrq at ran
  split at ran
  case isTrue => cases ran
  case isFalse =>
    obtain ⟨best, loop, rfl⟩ := ok_of_map ran
    have found := foldlM_ok (P := fun seen b => b = seen.foldl (arbitrate (s.claimPriority c ignth)) (0, 0))
      rfl (fun {seen irq b d} known _ turn => by
        rw [List.foldl_append, ← known]
        exact visit_ok turn) loop
    rw [found]
    rfl

theorem nextPendingIrq_pos_iff {irq : Nat} (ran : s.nextPendingIrq c false = .ok irq) :
    0 < irq ↔ s.Selected c := by
  have all : ∀ irq ∈ List.range' 1 numirq, 0 < irq := by decide
  have found := arbiter_ne_zero_iff (s.claimPriority c false) (List.pairwise_le_range' ..) all
  rw [nextPendingIrq_ok ran, Nat.pos_iff_ne_zero]
  refine found.trans ⟨?_, ?_⟩
  · rintro ⟨irq, known, positive⟩
    unfold claimPriority at positive
    split at positive
    case isFalse => omega
    case isTrue candidate =>
      obtain ⟨enabled, pending, below, fine⟩ := candidate
      have some := all irq known
      refine ⟨irq, ?_, enabled, pending, fun under => fine ⟨rfl, under⟩, ?_⟩
      · unfold ids
        rw [List.mem_range'_1]
        omega
      · intro zero
        rw [zero] at positive
        exact absurd positive (by decide)
  · rintro ⟨irq, known, enabled, pending, fine, some⟩
    unfold ids at known
    rw [List.mem_range'_1] at known
    have below : irq < numirq := by
      have last : numirq = 53 := rfl
      omega
    refine ⟨irq, by rw [List.mem_range'_1]; omega, ?_⟩
    unfold claimPriority
    rw [if_pos ⟨enabled, pending, below, fun both => fine both.2⟩, Nat.pos_iff_ne_zero]
    intro zero
    exact some (BitVec.eq_of_toNat_eq zero)

theorem visit_eq {ignth : Bool} {irq : Nat}
    (known : s.isEnabled c irq = true → s.isPending irq = true → irq < numirq) (best : Nat × Nat) : s.visit c ignth best irq = .ok (arbitrate (s.claimPriority c ignth) best irq) := by
  cases ran : s.visit c ignth best irq with
  | ok d => rw [visit_ok ran]
  | error e =>
    unfold visit at ran
    split at ran
    case isFalse => cases ran
    case isTrue candidate =>
      rw [Bool.and_eq_true] at candidate
      rw [if_pos (known candidate.1 candidate.2)] at ran
      split at ran <;> cases ran

theorem lt_of_visit {ignth : Bool} {irq : Nat} {b d : Nat × Nat} (ran : s.visit c ignth b irq = .ok d)
    (enabled : s.isEnabled c irq = true) (pending : s.isPending irq = true) : irq < numirq := by
  unfold visit at ran
  rw [enabled, pending] at ran
  by_contra other
  rw [if_pos (by decide), if_neg other] at ran
  cases ran

/-- The search ends unless it comes to the last interrupt. -/
theorem exists_nextPendingIrq_iff (here : c.Exists) (ignth : Bool) :
    (∃ irq, s.nextPendingIrq c ignth = .ok irq) ↔ ¬ s.LastCandidate c := by
  unfold nextPendingIrq
  rw [if_neg here]
  constructor
  · rintro ⟨irq, ran⟩ ⟨enabled, pending⟩
    obtain ⟨best, loop, -⟩ := ok_of_map ran
    have below : ∀ irq ∈ List.range' 1 numirq, s.isEnabled c irq = true → s.isPending irq = true → irq < numirq :=
      foldlM_ok (P := fun seen _ => ∀ irq ∈ seen, s.isEnabled c irq = true → s.isPending irq = true → irq < numirq)
        (by simp) (fun {seen irq b d} known _ turn i among => by
          rcases List.mem_append.mp among with old | new
          · exact known i old
          · rw [List.mem_singleton.mp new]
            exact lt_of_visit turn) loop
    exact Nat.lt_irrefl _ (below numirq (by decide) enabled pending)
  · intro fine
    refine ⟨_, congrArg (Except.map Prod.fst) (foldlM_eq_ok (0, 0) fun b irq among => visit_eq ?_ b)⟩
    intro enabled pending
    have inside := (List.mem_range'_1.mp among).2
    have other : irq ≠ numirq := by
      rintro rfl
      exact fine ⟨enabled, pending⟩
    omega

/-- A search for a context that exists fails for no other reason. -/
theorem nextPendingIrq_error {ignth : Bool} {e : Fault} (here : c.Exists)
    (ran : s.nextPendingIrq c ignth = .error e) : e = .arrayView := by
  unfold nextPendingIrq at ran
  rw [if_neg here] at ran
  refine foldlM_error (P := fun e => e = .arrayView) (fun {best irq e} _ turn => ?_) (error_of_map ran)
  unfold visit at turn
  split at turn
  case isFalse => cases turn
  split at turn
  case isTrue => split at turn <;> cases turn
  case isFalse =>
    cases turn
    rfl

/-! ## Both levels -/

theorem hasPendingIrq_ok {hart : Nat} {found : Option Level} (ran : s.hasPendingIrq hart = .ok found) :
    hart ≠ 0 ∧ s.Selected ⟨hart, .supervisor⟩ ∧ found = some .supervisor ∨
      (hart ≠ 0 → ¬ s.Selected ⟨hart, .supervisor⟩) ∧
        (s.Selected ⟨hart, .machine⟩ ∧ found = some .machine ∨ ¬ s.Selected ⟨hart, .machine⟩ ∧ found = none) := by
  have machine {found : Option Level} (ran : ((s.nextPendingIrq ⟨hart, .machine⟩ false).bind fun irq =>
      if 0 < irq then .ok (some Level.machine) else .ok none) = .ok found) :
      s.Selected ⟨hart, .machine⟩ ∧ found = some .machine ∨ ¬ s.Selected ⟨hart, .machine⟩ ∧ found = none := by
    cases looked : s.nextPendingIrq ⟨hart, .machine⟩ false with
    | error e => simp [looked, Except.bind] at ran
    | ok irq =>
      simp only [looked, Except.bind] at ran
      split at ran
      case isTrue some => exact .inl ⟨(nextPendingIrq_pos_iff looked).mp some, (Except.ok.inj ran).symm⟩
      case isFalse none =>
        exact .inr ⟨mt (nextPendingIrq_pos_iff looked).mpr none, (Except.ok.inj ran).symm⟩
  unfold hasPendingIrq at ran
  simp only [bind, pure, Except.pure] at ran
  split at ran
  case isFalse first => exact .inr ⟨fun other => absurd other first, machine ran⟩
  case isTrue other =>
    cases looked : s.nextPendingIrq ⟨hart, .supervisor⟩ false with
    | error e => simp [looked, Except.bind] at ran
    | ok irq =>
      rw [looked] at ran
      simp only [Except.bind] at ran
      split at ran
      case isTrue some =>
        exact .inl ⟨other, (nextPendingIrq_pos_iff looked).mp some, (Except.ok.inj ran).symm⟩
      case isFalse none => exact .inr ⟨fun _ => mt (nextPendingIrq_pos_iff looked).mpr none, machine ran⟩

/-- The contexts of `hart` that are looked at. -/
def LooksAt (s : Plic) (c : Context) : Prop :=
  match c.level with
  | .supervisor => c.hart ≠ 0
  | .machine => ¬ (c.hart ≠ 0 ∧ s.Selected ⟨c.hart, .supervisor⟩)

instance : Decidable (s.LooksAt c) := by
  unfold LooksAt
  split <;> infer_instance

/-- The context that is signalled to its hart. -/
def Chosen (s : Plic) (c : Context) : Prop := s.LooksAt c ∧ s.Selected c

instance : Decidable (s.Chosen c) := inferInstanceAs (Decidable (_ ∧ _))

/-- A search for the hart comes to the last interrupt. -/
def Stuck (s : Plic) (hart : Nat) : Prop :=
  ∃ level ∈ [Level.supervisor, .machine], s.LooksAt ⟨hart, level⟩ ∧ s.LastCandidate ⟨hart, level⟩

instance {hart : Nat} : Decidable (s.Stuck hart) := inferInstanceAs (Decidable (∃ level ∈ _, _))

theorem stuck_iff {hart : Nat} : s.Stuck hart ↔ hart ≠ 0 ∧ s.LastCandidate ⟨hart, .supervisor⟩ ∨
    ¬ (hart ≠ 0 ∧ s.Selected ⟨hart, .supervisor⟩) ∧ s.LastCandidate ⟨hart, .machine⟩ := by
  simp [Stuck, LooksAt]

/-- What `has_pending_irq` does behind the supervisor context. -/
theorem exists_machine_iff {hart : Nat} : (∃ found : Option Level,
    ((s.nextPendingIrq ⟨hart, .machine⟩ false).bind fun irq =>
      if 0 < irq then .ok (some Level.machine) else .ok none) = .ok found) ↔
        ¬ s.LastCandidate ⟨hart, .machine⟩ := by
  rw [← exists_nextPendingIrq_iff (s := s) (c := ⟨hart, .machine⟩) (by simp [Context.Exists]) false]
  cases s.nextPendingIrq ⟨hart, .machine⟩ false with
  | error e => simp [Except.bind]
  | ok irq =>
    refine iff_of_true ?_ ⟨irq, rfl⟩
    by_cases some : 0 < irq
    · exact ⟨_, if_pos some⟩
    · exact ⟨_, if_neg some⟩

theorem exists_hasPendingIrq_iff {hart : Nat} :
    (∃ found, s.hasPendingIrq hart = .ok found) ↔ ¬ s.Stuck hart := by
  rw [stuck_iff]
  unfold hasPendingIrq
  simp only [bind, pure, Except.pure]
  by_cases first : hart = 0
  · rw [if_neg (fun other => other first), exists_machine_iff]
    simp [first]
  have here : Context.Exists ⟨hart, .supervisor⟩ := fun both => first both.1
  have looked := exists_nextPendingIrq_iff (s := s) here false
  rw [if_pos first]
  cases ran : s.nextPendingIrq ⟨hart, .supervisor⟩ false with
  | error e =>
    rw [ran] at looked
    have last : s.LastCandidate ⟨hart, .supervisor⟩ := by
      by_contra fine
      obtain ⟨irq, absurd⟩ := looked.mpr fine
      cases absurd
    exact iff_of_false nofun fun fine => fine (.inl ⟨first, last⟩)
  | ok irq =>
    have fine : ¬ s.LastCandidate ⟨hart, .supervisor⟩ := looked.mp ⟨irq, ran⟩
    have found := nextPendingIrq_pos_iff ran
    by_cases some : 0 < irq
    · refine iff_of_true ⟨_, if_pos some⟩ ?_
      simp [fine, first, found.mp some]
    · have none := mt found.mpr some
      simp only [Except.bind, some, if_false]
      refine exists_machine_iff.trans ?_
      simp [fine, none]

theorem hasPendingIrq_error {hart : Nat} {e : Fault} (ran : s.hasPendingIrq hart = .error e) :
    e = .arrayView := by
  have machine {e : Fault} (ran : ((s.nextPendingIrq ⟨hart, .machine⟩ false).bind fun irq =>
      if 0 < irq then .ok (some Level.machine) else .ok none) = .error e) : e = .arrayView := by
    cases looked : s.nextPendingIrq ⟨hart, .machine⟩ false with
    | error e' =>
      rw [looked] at ran
      cases ran
      exact nextPendingIrq_error (by simp [Context.Exists]) looked
    | ok irq =>
      simp only [looked, Except.bind] at ran
      split at ran <;> cases ran
  unfold hasPendingIrq at ran
  simp only [bind, pure, Except.pure] at ran
  split at ran
  case isFalse => exact machine ran
  case isTrue other =>
    cases looked : s.nextPendingIrq ⟨hart, .supervisor⟩ false with
    | error e' =>
      rw [looked] at ran
      cases ran
      exact nextPendingIrq_error (fun both => other both.1) looked
    | ok irq =>
      simp only [looked, Except.bind] at ran
      split at ran
      · cases ran
      · exact machine ran

/-- What an activation does for one hart: it sets the line of the chosen context. -/
theorem signal_ok {hart : Nat} (ran : s.signal hart = .ok t) :
    ∃ line, t = { s with line := line } ∧
      ∀ d, line d = true ↔ s.line d = true ∨ d.hart = hart ∧ s.Chosen d := by
  unfold signal at ran
  cases looked : s.hasPendingIrq hart with
  | error e => simp [looked] at ran
  | ok found =>
    have set (level : Level) (d : Context) :
        (if d = ⟨hart, level⟩ then true else s.line d) = true ↔
          s.line d = true ∨ d.hart = hart ∧ d.level = level := by
      obtain ⟨h, l⟩ := d
      by_cases same : h = hart ∧ l = level
      · simp [same]
      · rw [if_neg (by simpa using same)]
        simp [same]
    rcases hasPendingIrq_ok looked with ⟨other, above, rfl⟩ | ⟨none, ⟨below, rfl⟩ | ⟨empty, rfl⟩⟩
    · simp only [looked] at ran
      cases ran
      refine ⟨_, rfl, fun d => (set .supervisor d).trans (or_congr_right (and_congr_right ?_))⟩
      obtain ⟨h, l⟩ := d
      rintro rfl
      cases l with
      | supervisor => exact iff_of_true rfl ⟨other, above⟩
      | machine => exact iff_of_false nofun fun chosen => chosen.1 ⟨other, above⟩
    · simp only [looked] at ran
      cases ran
      refine ⟨_, rfl, fun d => (set .machine d).trans (or_congr_right (and_congr_right ?_))⟩
      obtain ⟨h, l⟩ := d
      rintro rfl
      cases l with
      | supervisor => exact iff_of_false nofun fun chosen => none chosen.1 chosen.2
      | machine => exact iff_of_true rfl ⟨fun both => none both.1 both.2, below⟩
    · simp only [looked] at ran
      cases ran
      refine ⟨_, rfl, fun d => (or_iff_left ?_).symm⟩
      obtain ⟨h, l⟩ := d
      rintro ⟨rfl, looks, chosen⟩
      cases l with
      | supervisor => exact none looks chosen
      | machine => exact empty chosen

theorem signal_stuck {hart : Nat} : (∃ t, s.signal hart = .ok t) ↔ ¬ s.Stuck hart := by
  rw [← exists_hasPendingIrq_iff]
  unfold signal
  cases s.hasPendingIrq hart with
  | error e => simp
  | ok found => cases found <;> simp

theorem signal_error {hart : Nat} {e : Fault} (ran : s.signal hart = .error e) : e = .arrayView := by
  unfold signal at ran
  cases looked : s.hasPendingIrq hart with
  | error e' =>
    rw [looked] at ran
    cases ran
    exact hasPendingIrq_error looked
  | ok found =>
    rw [looked] at ran
    cases found <;> cases ran

/-- A whole activation. -/
theorem run_ok (ran : s.run harts = .ok t) (outstanding : s.eRun = true) :
    ∃ line, t = { s with eRun := false, line := line } ∧
      ∀ d, line d = true ↔ s.line d = true ∨ d.hart < harts ∧ s.Chosen d := by
  unfold run at ran
  rw [if_pos outstanding] at ran
  have loop := foldlM_ok (P := fun seen u => ∃ line, u = { s with eRun := false, line := line } ∧
      ∀ d, line d = true ↔ s.line d = true ∨ d.hart ∈ seen ∧ s.Chosen d) ⟨s.line, rfl, by simp⟩ ?_ ran
  · obtain ⟨line, same, told⟩ := loop
    refine ⟨line, same, fun d => (told d).trans ?_⟩
    rw [List.mem_range]
  · rintro seen hart _ u ⟨line, rfl, told⟩ - one
    obtain ⟨next, rfl, now⟩ := signal_ok one
    refine ⟨next, rfl, fun d => (now d).trans ?_⟩
    have same : Chosen { s with eRun := false, line := line } d ↔ s.Chosen d := Iff.rfl
    rw [told d, same, List.mem_append, List.mem_singleton]
    tauto

/-- It fails where it comes to the last interrupt, and nowhere else. -/
theorem exists_run_iff : (∃ t, s.run harts = .ok t) ↔
    (s.eRun = true → ∀ hart < harts, ¬ s.Stuck hart) := by
  unfold run
  by_cases outstanding : s.eRun = true
  case neg => simp [outstanding]
  case pos =>
    rw [if_pos outstanding]
    have loop : (∃ t, (List.range harts).foldlM signal { s with eRun := false } = .ok t) ↔
        ∀ hart ∈ List.range harts, ¬ s.Stuck hart := by
      refine exists_foldlM_iff (I := fun u => ∃ line, u = { s with eRun := false, line := line })
        ⟨s.line, rfl⟩ ?_ ?_
      · rintro _ hart u ⟨line, rfl⟩ one
        obtain ⟨next, rfl, -⟩ := signal_ok one
        exact ⟨next, rfl⟩
      · rintro _ hart ⟨line, rfl⟩
        exact signal_stuck
    rw [loop]
    simp [outstanding]

theorem run_error {e : Fault} (ran : s.run harts = .error e) : e = .arrayView := by
  unfold run at ran
  split at ran
  case isFalse => cases ran
  case isTrue => exact foldlM_error (P := fun e => e = .arrayView) (fun _ one => signal_error one) ran

end Plic

/-! ## Accesses -/

theorem nextPendingIrq_le {ignth : Bool} {irq : Nat} (ran : s.nextPendingIrq c ignth = .ok irq) :
    irq ≤ numirq := by
  have sorted : (List.range' 1 numirq).Pairwise (· ≤ ·) := List.pairwise_le_range'
  rw [Plic.nextPendingIrq_ok ran]
  rcases arbiter_best (s.claimPriority c ignth) sorted with ⟨zero, -⟩ | wins
  · rw [zero]
    exact Nat.zero_le _
  · have known := List.mem_range'_1.mp wins.mem
    omega

/-- The state behind a claim that found `irq`. -/
def Plic.claimed (s : Plic) (c : Context) (irq : Nat) : Plic :=
  let s := s.setHartContext c ((s.hartContext c).setWord 1 (BitVec.ofNat 32 irq))
  if irq ≠ 0 then s.setPending irq false else s

def clampPriority (value : BitVec 32) : BitVec 32 := if maxPrio < value then maxPrio else value

theorem contains_priorities {addr : BitVec 64} : Register.priorities.range.contains addr = true ↔
    4 ≤ addr.toNat ∧ addr.toNat < 4 + 4 * numirq :=
  RegisterRange.contains_iff _ (by decide) (by decide)

/-- A write to a context without what a completion does. -/
def plainWriteHartctx (c : Context) (addr : BitVec 64) (size : Nat) (s : Plic) : Except Fault Plic :=
  if addr.toNat % 4 = 0 then
    if size = 4 then
      if Plic.isClaimAccess addr then .ok s else .ok (s.clampThreshold c)
    else .error .contextSize
  else .error .contextAddress

def Register.plainRange : Register → RegisterRange Plic Fault
  | .context c => { (Register.context c).range with postWrite := plainWriteHartctx c }
  | r => r.range

/-- The registers behind a write, and no line changed. -/
def store (harts : Nat) {n : Nat} (addr : BitVec 64) (value : BitVec (8 * n)) (s : Plic) :
    Except (AccessError Fault) (BitVec (8 * n) × Plic) :=
  route ((registers harts).map Register.plainRange) (.write value) addr s

/-- The context whose completion a write to `addr` is. -/
def completion (harts : Nat) (addr : BitVec 64) : Option Context :=
  match (registers harts).find? (·.range.contains addr) with
  | some (.context c) =>
      if Plic.isClaimAccess ((Register.context c).range.toLocal addr) then some c else none
  | _ => none

theorem contains_plainRange (r : Register) (addr : BitVec 64) :
    r.plainRange.contains addr = r.range.contains addr := by
  cases r <;> rfl

section Accesses

variable {n : Nat} {addr : BitVec 64}

/-- The callback cuts the word that the write starts with. -/
theorem priority_of_writeIrqPrios {local_ : BitVec 64} (ran : Plic.writeIrqPrios local_ n s = .ok t)
    {j : Nat} (small : j < numirq) :
    t.priority j = if j = local_.toNat / 4 then clampPriority (s.priority j) else s.priority j := by
  have count : numirq = 53 := rfl
  unfold Plic.writeIrqPrios at ran
  obtain ⟨inside, ran⟩ := ok_of_guard ran
  cases ran
  have element :
      (s.interruptPriorities.setWord (local_.toNat / 4) (clampPriority (s.priority (local_.toNat / 4)))).word j =
      if j = local_.toNat / 4 then clampPriority (s.priority (local_.toNat / 4)) else s.priority j :=
    ByteMemory.word_setWord _ (by omega) (by omega) _
  refine element.trans ?_
  split
  case isTrue same => rw [same]
  case isFalse => rfl

/-- The check of the access is the same, and the line is all that differs. -/
theorem writeHartctx_eq (u : Plic) : Plic.writeHartctx c addr n u =
    (plainWriteHartctx c addr n u).map fun u =>
      if Plic.isClaimAccess addr then u.setLine c false else u := by
  unfold Plic.writeHartctx plainWriteHartctx
  split
  · split
    · split
      case isTrue claim => simp [Except.map]
      case isFalse threshold => simp [Except.map]
    · rfl
  · rfl

theorem process_context (value : BitVec (8 * n)) :
    (Register.context c).range.process (.write value) addr s =
      ((Register.context c).plainRange.process (.write value) addr s).map fun (data, u) =>
        (data, if Plic.isClaimAccess ((Register.context c).range.toLocal addr) then u.setLine c false else u) := by
  have plain : (Register.context c).plainRange.process (.write value) addr s =
      if addr.toNat % (Register.context c).range.alignment = 0 ∧ n % (Register.context c).range.alignment = 0 then
        if ((Register.context c).range.toLocal addr).toNat + n ≤ (Register.context c).range.size then
          ((plainWriteHartctx c ((Register.context c).range.toLocal addr) n ((Register.context c).range.setMem
            (((Register.context c).range.mem s).write ((Register.context c).range.toLocal addr) n value) s)).mapError
              .device).map (value, ·)
        else .error .beyond
      else .error .unaligned := RegisterRange.process_write _ rfl rfl value
  rw [RegisterRange.process_write _ rfl rfl, plain]
  split
  · split
    · rw [show (Register.context c).range.postWrite = Plic.writeHartctx c from rfl, writeHartctx_eq]
      generalize plainWriteHartctx c ((Register.context c).range.toLocal addr) n _ = result
      cases result <;> rfl
    · rfl
  · rfl

/-- A write is a store, and a completion clears a line behind it. -/
theorem transport_write (value : BitVec (8 * n)) : transport harts (.write value) addr s =
    (store harts addr value s).map fun (data, u) =>
      (data, match completion harts addr with | some c => u.setLine c false | none => u) := by
  have plain : ((registers harts).find? fun r => r.plainRange.contains addr) =
      (registers harts).find? fun r => r.range.contains addr :=
    congrArg (fun p => List.find? p _) (funext fun r => contains_plainRange r addr)
  have same (x : Except (AccessError Fault) (BitVec (8 * n) × Plic)) : x = x.map id := by
    cases x <;> rfl
  unfold transport store completion route
  rw [List.find?_map, List.find?_map]
  simp only [Function.comp_def, plain]
  cases found : (registers harts).find? fun r => r.range.contains addr with
  | none => rfl
  | some r =>
    cases r with
    | priorities => exact same _
    | pending => exact same _
    | enable c => exact same _
    | context c =>
      refine (process_context value).trans ?_
      refine congrArg (fun f => Except.map f _) (funext fun (result : BitVec (8 * n) × Plic) => ?_)
      cases claim : Plic.isClaimAccess ((Register.context c).range.toLocal addr) <;> simp [claim]

/-- What a store leaves alone. -/
theorem store_frame {value data : BitVec (8 * n)} (ran : store harts addr value s = .ok (data, t)) :
    t.pendingInterrupts = s.pendingInterrupts ∧ t.line = s.line ∧ t.eRun = s.eRun := by
  obtain ⟨r, known, -, -, -, go, u, before, after⟩ := route_write_ok ran
  obtain ⟨r, -, rfl⟩ := List.mem_map.mp known
  cases r with
  | priorities =>
    cases before
    rcases after with ⟨done, -⟩ | ⟨-, after⟩
    · cases done
    · have after : Plic.writeIrqPrios _ n _ = .ok t := after
      unfold Plic.writeIrqPrios at after
      simp only at after
      split at after
      · cases after
        exact ⟨rfl, rfl, rfl⟩
      · cases after
  | pending =>
    cases before
    rcases after with ⟨-, rfl⟩ | ⟨absurd, -⟩
    · exact ⟨rfl, rfl, rfl⟩
    · cases absurd
  | enable c =>
    cases before
    rcases after with ⟨done, -⟩ | ⟨-, after⟩
    · cases done
    · cases after
      exact ⟨rfl, rfl, rfl⟩
  | context c =>
    cases before
    rcases after with ⟨done, -⟩ | ⟨-, after⟩
    · cases done
    · have after : plainWriteHartctx c _ n _ = .ok t := after
      unfold plainWriteHartctx at after
      obtain ⟨-, after⟩ := ok_of_guard after
      obtain ⟨-, after⟩ := ok_of_guard after
      split at after
      · cases after
        exact ⟨rfl, rfl, rfl⟩
      · cases after
        exact ⟨rfl, rfl, rfl⟩

/-- A read of a register is plain, or a claim that takes at most a pending bit and leaves every
threshold. -/
theorem transport_read_ok {data : BitVec (8 * n)} (ran : transport harts .read addr s = .ok (data, t)) :
    t = s ∨ ∃ c irq, irq ≤ numirq ∧ t = s.claimed c irq := by
  obtain ⟨r, known, -, -, called, -⟩ := route_read_ok ran
  obtain ⟨r, -, rfl⟩ := List.mem_map.mp known
  cases r with
  | priorities => exact .inl (Except.ok.inj called).symm
  | pending => exact .inl (Except.ok.inj called).symm
  | enable c => exact .inl (Except.ok.inj called).symm
  | context c =>
    have called : Plic.readHartctx c _ n s = .ok t := called
    unfold Plic.readHartctx at called
    obtain ⟨-, called⟩ := ok_of_guard called
    obtain ⟨-, called⟩ := ok_of_guard called
    split at called
    case isFalse => exact .inl (Except.ok.inj called).symm
    case isTrue =>
      cases looked : s.nextPendingIrq c true with
      | error e => simp [looked] at called
      | ok irq =>
        simp only [looked] at called
        exact .inr ⟨c, irq, nextPendingIrq_le looked, (Except.ok.inj called).symm⟩

end Accesses

end RiscvVp.Fu540
