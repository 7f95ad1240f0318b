/-
# RiscvVp.Plic.Fu540Threshold -- what the threshold of a context lets through

A context is to be signalled for interrupts above its threshold only.  `next_pending_irq` passes over
those below it, so that an interrupt at the threshold is let through when nothing is above, and it
fails where the last interrupt, which has no priority, is a candidate.
-/
import RiscvVp.Plic.Fu540Steps

namespace RiscvVp.Fu540

set_option autoImplicit false

open Lib

variable {s : Plic} {c : Context}

namespace Plic

/-! ## What is to be found -/

/-- The priority of an interrupt among those above the threshold, 0 for the others. -/
def signalPriority (s : Plic) (c : Context) (irq : Nat) : Nat :=
  if s.isEnabled c irq = true ∧ s.isPending irq = true ∧ s.getThreshold c < s.priority irq then
    (s.priority irq).toNat
  else 0

/-- `irq` is the first of the highest priority above the threshold, or 0 when there is none. -/
def Picks (s : Plic) (c : Context) (irq : Nat) : Prop :=
  irq = 0 ∧ ¬ s.Deliverable c ∨ Wins (s.signalPriority c) ids irq

/-- The level to be signalled to a hart. -/
def toSignal (s : Plic) (hart : Nat) : Option Level :=
  if hart ≠ 0 ∧ s.Deliverable ⟨hart, .supervisor⟩ then some .supervisor
  else if s.Deliverable ⟨hart, .machine⟩ then some .machine
  else none

/-! ## When it is found -/

/-- An interrupt whose priority is the threshold. -/
def AtThreshold (s : Plic) (c : Context) : Prop :=
  ∃ irq ∈ ids, s.isEnabled c irq = true ∧ s.isPending irq = true ∧ s.priority irq = s.getThreshold c ∧
    s.priority irq ≠ 0#32

instance : Decidable (s.AtThreshold c) := inferInstanceAs (Decidable (∃ irq ∈ ids, _))

/-- All candidates have a priority, and none is at the threshold unless another one is above. -/
def Fine (s : Plic) (c : Context) : Prop := ¬ s.LastCandidate c ∧ (s.AtThreshold c → s.Deliverable c)

instance : Decidable (s.Fine c) := inferInstanceAs (Decidable (_ ∧ (_ → _)))

theorem selected_iff : s.Selected c ↔ s.AtThreshold c ∨ s.Deliverable c := by
  constructor
  · rintro ⟨irq, known, enabled, pending, fine, some⟩
    by_cases above : s.getThreshold c < s.priority irq
    · exact .inr ⟨irq, known, enabled, pending, above⟩
    · refine .inl ⟨irq, known, enabled, pending, BitVec.eq_of_toNat_eq ?_, some⟩
      rw [BitVec.lt_def] at above fine
      omega
  · rintro (⟨irq, known, enabled, pending, same, some⟩ | above)
    · refine ⟨irq, known, enabled, pending, ?_, some⟩
      rw [same]
      exact BitVec.lt_irrefl _
    · exact selected_of_deliverable above

/-! ## The search -/

theorem signalPriority_pos_iff {irq : Nat} : 0 < s.signalPriority c irq ↔
    s.isEnabled c irq = true ∧ s.isPending irq = true ∧ s.getThreshold c < s.priority irq := by
  unfold signalPriority
  split
  case isTrue candidate =>
    have above := BitVec.lt_def.mp candidate.2.2
    exact iff_of_true (by omega) candidate
  case isFalse other => exact iff_of_false (Nat.lt_irrefl 0) other

/-- Above the threshold the two priorities are the same. -/
theorem claimPriority_eq {irq : Nat} (known : irq ∈ ids) (some : 0 < s.signalPriority c irq) :
    s.claimPriority c false irq = s.signalPriority c irq := by
  have candidate := signalPriority_pos_iff.mp some
  have inside := (List.mem_range'_1.mp known).2
  have last : numirq = 53 := rfl
  have under : ¬ s.priority irq < s.getThreshold c := by
    have above := BitVec.lt_def.mp candidate.2.2
    rw [BitVec.lt_def]
    omega
  unfold claimPriority signalPriority
  rw [if_pos ⟨candidate.1, candidate.2.1, by omega, fun both => under both.2⟩, if_pos candidate]

/-- The winner is above the threshold as soon as something is. -/
theorem wins_signalPriority {irq : Nat} (wins : Wins (s.claimPriority c false) (List.range' 1 numirq) irq)
    (something : s.Deliverable c) : Wins (s.signalPriority c) ids irq := by
  have every {j : Nat} (known : j ∈ ids) : j ∈ List.range' 1 numirq := by
    have inside := List.mem_range'_1.mp known
    rw [List.mem_range'_1]
    omega
  obtain ⟨i, known, candidate⟩ := something
  have some : 0 < s.signalPriority c i := signalPriority_pos_iff.mpr candidate
  have lower := wins.highest i (every known)
  rw [claimPriority_eq known some] at lower
  -- the winner is a candidate with at least the priority of `i`
  have positive := wins.positive
  unfold claimPriority at positive lower
  split at positive
  case isFalse => exact absurd positive (Nat.lt_irrefl 0)
  case isTrue winner =>
    rw [if_pos winner] at lower
    have above : s.getThreshold c < s.priority irq := by
      have below := BitVec.lt_def.mp candidate.2.2
      unfold signalPriority at lower
      rw [if_pos candidate] at lower
      rw [BitVec.lt_def]
      omega
    have among : irq ∈ ids := by
      have inside := List.mem_range'_1.mp wins.mem
      unfold ids
      rw [List.mem_range'_1]
      omega
    have positive' : 0 < s.signalPriority c irq := signalPriority_pos_iff.mpr ⟨winner.1, winner.2.1, above⟩
    refine ⟨among, positive', fun j known => ?_, fun j known same => ?_⟩
    · by_cases some : 0 < s.signalPriority c j
      · rw [← claimPriority_eq known some, ← claimPriority_eq among positive']
        exact wins.highest j (every known)
      · omega
    · refine wins.first j (every known) ?_
      rw [claimPriority_eq known (same ▸ positive'), claimPriority_eq among positive', same]

theorem deliverable_of_wins {irq : Nat} (wins : Wins (s.signalPriority c) ids irq) : s.Deliverable c :=
  ⟨irq, wins.mem, signalPriority_pos_iff.mp wins.positive⟩

theorem picks_of_fine (here : c.Exists) (fine : s.Fine c) : ∃ irq, s.nextPendingIrq c false = .ok irq ∧ s.Picks c irq := by
  obtain ⟨irq, ran⟩ := (exists_nextPendingIrq_iff here false).mpr fine.1
  refine ⟨irq, ran, ?_⟩
  by_cases something : s.Deliverable c
  · have some := (nextPendingIrq_pos_iff ran).mpr (selected_of_deliverable something)
    have sorted : (List.range' 1 numirq).Pairwise (· ≤ ·) := List.pairwise_le_range'
    have best := arbiter_best (s.claimPriority c false) sorted
    rw [← nextPendingIrq_ok ran] at best
    rcases best with ⟨zero, -⟩ | wins
    · omega
    · exact .inr (wins_signalPriority wins something)
  · have none : ¬ s.Selected c := by
      rw [selected_iff]
      exact fun found => something (found.elim fine.2 id)
    refine .inl ⟨?_, something⟩
    have zero := mt (nextPendingIrq_pos_iff ran).mp none
    omega

theorem fine_of_pos_iff (here : c.Exists) {irq : Nat} (ran : s.nextPendingIrq c false = .ok irq)
    (right : 0 < irq → s.Deliverable c) : s.Fine c :=
  ⟨(exists_nextPendingIrq_iff here false).mp ⟨irq, ran⟩,
    fun at_ => right ((nextPendingIrq_pos_iff ran).mpr (selected_iff.mpr (.inl at_)))⟩

theorem pos_iff_of_picks {irq : Nat} (picks : s.Picks c irq) : 0 < irq ↔ s.Deliverable c := by
  rcases picks with ⟨rfl, none⟩ | wins
  · exact iff_of_false (Nat.lt_irrefl 0) none
  · have above := (List.mem_range'_1.mp wins.mem).1
    exact iff_of_true (by omega) (deliverable_of_wins wins)

theorem picks_iff (here : c.Exists) : (∃ irq, s.nextPendingIrq c false = .ok irq ∧ s.Picks c irq) ↔ s.Fine c := by
  constructor
  · rintro ⟨irq, ran, picks⟩
    exact fine_of_pos_iff here ran (pos_iff_of_picks picks).mp
  · exact picks_of_fine here

/-! ## Both levels -/

/-- The search of the machine context, and what is made of it. -/
theorem machine_iff (s : Plic) (hart : Nat) :
    ((s.nextPendingIrq ⟨hart, .machine⟩ false).bind fun irq =>
        if 0 < irq then Except.ok (some Level.machine) else .ok none) =
      .ok (if s.Deliverable ⟨hart, .machine⟩ then some .machine else none) ↔ s.Fine ⟨hart, .machine⟩ := by
  have here : Context.Exists ⟨hart, .machine⟩ := by simp [Context.Exists]
  constructor
  · intro told
    cases ran : s.nextPendingIrq ⟨hart, .machine⟩ false with
    | error e =>
      rw [ran] at told
      cases told
    | ok irq =>
      refine fine_of_pos_iff here ran fun some => ?_
      by_contra none
      simp only [ran, Except.bind, if_pos some, if_neg none] at told
      cases told
  · intro fine
    obtain ⟨irq, ran, picks⟩ := picks_of_fine here fine
    have right := pos_iff_of_picks picks
    rw [ran]
    show (if 0 < irq then Except.ok (some Level.machine) else .ok none) = _
    split
    case isTrue some => rw [if_pos (right.mp some)]
    case isFalse none => rw [if_neg (mt right.mpr none)]

theorem hasPendingIrq_iff (s : Plic) (hart : Nat) : s.hasPendingIrq hart = .ok (s.toSignal hart) ↔
    (hart ≠ 0 → s.Fine ⟨hart, .supervisor⟩) ∧
      (hart = 0 ∨ ¬ s.Deliverable ⟨hart, .supervisor⟩ → s.Fine ⟨hart, .machine⟩) := by
  have machine := machine_iff s hart
  unfold hasPendingIrq toSignal
  simp only [bind, pure, Except.pure]
  by_cases first : hart = 0
  · rw [if_neg (fun other => other first), if_neg (fun both => both.1 first)]
    refine machine.trans ⟨fun fine => ⟨fun other => absurd first other, fun _ => fine⟩, fun both => both.2 (.inl first)⟩
  · have here : Context.Exists ⟨hart, .supervisor⟩ := fun both => first both.1
    rw [if_pos first]
    cases ran : s.nextPendingIrq ⟨hart, .supervisor⟩ false with
    | error e =>
      refine iff_of_false nofun fun both => ?_
      obtain ⟨irq, ran', -⟩ := picks_of_fine here (both.1 first)
      rw [ran] at ran'
      cases ran'
    | ok irq =>
      show (if 0 < irq then _ else _) = _ ↔ _
      by_cases some : 0 < irq
      · rw [if_pos some]
        constructor
        · intro told
          have something : s.Deliverable ⟨hart, .supervisor⟩ := by
            by_contra none
            rw [if_neg (fun both => none both.2)] at told
            split at told <;> cases told
          exact ⟨fun _ => fine_of_pos_iff here ran fun _ => something, fun neither =>
            (neither.elim first (absurd something)).elim⟩
        · rintro ⟨fine, -⟩
          obtain ⟨irq', ran', picks⟩ := picks_of_fine here (fine first)
          cases ran.symm.trans ran'
          rw [if_pos ⟨first, (pos_iff_of_picks picks).mp some⟩]
      · have none : ¬ s.Deliverable ⟨hart, .supervisor⟩ := fun something =>
          some ((nextPendingIrq_pos_iff ran).mpr (selected_of_deliverable something))
        rw [if_neg some, if_neg (fun both => none both.2)]
        exact machine.trans ⟨fun fine => ⟨fun _ => fine_of_pos_iff here ran (absurd · some), fun _ => fine⟩,
          fun both => both.2 (.inr none)⟩

end Plic

/-- A context gets the first of the highest priority above its threshold exactly where it is `Fine`,
and a hart is signalled for it where the contexts that are looked at are. -/
theorem notification_iff (s : Plic) :
    (∀ c : Context, c.Exists → ((∃ irq, s.nextPendingIrq c false = .ok irq ∧ s.Picks c irq) ↔ s.Fine c)) ∧
      ∀ hart, s.hasPendingIrq hart = .ok (s.toSignal hart) ↔
        (hart ≠ 0 → s.Fine ⟨hart, .supervisor⟩) ∧
          (hart = 0 ∨ ¬ s.Deliverable ⟨hart, .supervisor⟩ → s.Fine ⟨hart, .machine⟩) :=
  ⟨fun _ here => Plic.picks_iff here, s.hasPendingIrq_iff⟩

/-- The first interrupt of hart 0, with the priority and a threshold. -/
def single (priority threshold : BitVec 32) : Plic where
  interruptPriorities := ByteMemory.setWord (fun _ => 0) 1 priority
  pendingInterrupts := ByteMemory.setBit (fun _ => 0) 1 true
  enabledIrqs _ := ByteMemory.setBit (fun _ => 0) 1 true
  hartContext _ := ByteMemory.setWord (fun _ => 0) 0 threshold
  line _ := false
  eRun := true

theorem notification_above : ∃ irq, (single 3 2).nextPendingIrq ⟨0, .machine⟩ false = .ok irq ∧
    (single 3 2).Picks ⟨0, .machine⟩ irq :=
  ((notification_iff (single 3 2)).1 ⟨0, .machine⟩ (by decide)).mpr (by decide +kernel)

/-- Hart 0 is signalled for an interrupt whose priority is its threshold. -/
theorem not_notification :
    (¬ ∀ (s : Plic) (c : Context), c.Exists → ∃ irq, s.nextPendingIrq c false = .ok irq ∧ s.Picks c irq) ∧
      ¬ ∀ (s : Plic) (hart : Nat), s.hasPendingIrq hart = .ok (s.toSignal hart) := by
  constructor
  · intro all
    obtain ⟨irq, ran, picks⟩ := all (single 3 3) ⟨0, .machine⟩ (by decide)
    have first : (single 3 3).nextPendingIrq ⟨0, .machine⟩ false = .ok 1 := by decide +kernel
    cases ran.symm.trans first
    have none : ¬ (single 3 3).Deliverable ⟨0, .machine⟩ := by decide +kernel
    exact none ((Plic.pos_iff_of_picks picks).mp (by decide))
  · intro all
    have told : (single 3 3).hasPendingIrq 0 = .ok (some .machine) := by decide +kernel
    have none : (single 3 3).toSignal 0 = Option.none := by decide +kernel
    have same := (all (single 3 3) 0).symm.trans told
    rw [none] at same
    cases same

end RiscvVp.Fu540
