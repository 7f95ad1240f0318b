/-
# RiscvVp.Plic.Fe310Lines -- the interrupt line of the FE310 controller with one core

`hart_eip` is a copy of "something is deliverable" that only `run` sets and only a completion
clears.  A register write makes interrupts deliverable without a word to `run`, and a completion
asserts `hart_eip` where `run` has not been yet.  `Mild` says which writes do neither, by the bytes
they bring and the state they come to; these and no others keep the line from falling behind.
-/
import RiscvVp.Plic.Fe310Steps

namespace RiscvVp.Fe310

set_option autoImplicit false

open Lib

variable {p : Params} {s t : Plic}

/-! ## What a write makes deliverable -/

def clampPriority (p : Params) (value : BitVec 32) : BitVec 32 :=
  if p.maxPriority < value then p.maxPriority else value

theorem word_foldl_clamp {n : Nat} (small : n < 2 ^ 61) (m : ByteMemory) {i : Nat} (index : i < 2 ^ 61) :
    ((List.range n).foldl (fun m i => m.setWord i (clampPriority p (m.word i))) m).word i =
      if i < n then clampPriority p (m.word i) else m.word i := by
  induction n with
  | zero => rfl
  | succ n ih =>
    have before := ih (by omega)
    rw [List.range_succ, List.foldl_append, List.foldl_cons, List.foldl_nil, ByteMemory.word_setWord _ index (by omega)]
    by_cases here : i = n
    · subst here
      rw [if_neg (Nat.lt_irrefl i)] at before
      rw [if_pos rfl, if_pos (Nat.lt_succ_self i), before]
    · rw [if_neg here, before]
      exact if_congr (by omega) rfl rfl

/-- The loop leaves out the last element. -/
theorem priority_postWrite (s : Plic) {i : Nat} (known : i ≤ p.numberInterrupts) :
    (Plic.postWriteInterruptPriorities p s).priority i =
      if i < p.numberInterrupts then clampPriority p (s.priority i) else s.priority i := by
  have interrupts := p.interrupts
  exact word_foldl_clamp (by omega) s.interruptPriorities (by omega)

/-- The bytes of the access are whole elements of the range. -/
def Fits (r : RegisterRange Plic Fault) (n : Nat) (addr : BitVec 64) : Prop :=
  (addr.toNat % r.alignment = 0 ∧ n % r.alignment = 0) ∧ (r.toLocal addr).toNat + n ≤ r.size

instance {r : RegisterRange Plic Fault} {n : Nat} {addr : BitVec 64} : Decidable (Fits r n addr) :=
  inferInstanceAs (Decidable (_ ∧ _))

section Raises

variable {n : Nat} {addr : BitVec 64} {value : BitVec (8 * n)}

/-- A pending interrupt is deliverable with the bytes that are written: with its priority, its
enable bit or the threshold. -/
def Raises (p : Params) (s : Plic) (n : Nat) (addr : BitVec 64) (value : BitVec (8 * n)) : Prop :=
  if (regsInterruptPriorities p).contains addr then
    Fits (regsInterruptPriorities p) n addr ∧
      let written := s.interruptPriorities.write ((regsInterruptPriorities p).toLocal addr) n value
      ∃ i ∈ p.ids, s.enabled 0 i = true ∧ s.pending i = true ∧
        s.threshold 0 < clampPriority p (written.word i)
  else if (regsPendingInterrupts p).contains addr then False
  else if (regsHartEnabledInterrupts p).contains addr then
    Fits (regsHartEnabledInterrupts p) n addr ∧
      let written := s.hartEnabledInterrupts.write ((regsHartEnabledInterrupts p).toLocal addr) n value
      ∃ i ∈ p.ids, (written.word (Plic.enabledIndex 0 (i / 32))).getLsbD (i % 32) = true ∧
        s.pending i = true ∧ s.threshold 0 < s.priority i
  else if (plainHartConfig p).contains addr then
    Fits (plainHartConfig p) n addr ∧
      let written := s.hartConfig.write ((plainHartConfig p).toLocal addr) n value
      ∃ i ∈ p.ids, s.enabled 0 i = true ∧ s.pending i = true ∧ written.word 0 < s.priority i
  else False

instance : Decidable (Raises p s n addr value) := by
  unfold Raises
  infer_instance

/-- A plain write to a range, and what is deliverable behind it. -/
theorem exists_process_iff {r : RegisterRange Plic Fault} (writable : r.readonly = false)
    (open_ : r.preWrite = fun _ _ s => .ok (true, s)) {after : Plic}
    (callback : r.postWrite (r.toLocal addr) n
      (r.setMem ((r.mem s).write (r.toLocal addr) n value) s) = .ok after) {P : Plic → Prop} :
    (∃ data t, r.process (.write value) addr s = .ok (data, t) ∧ P t) ↔ Fits r n addr ∧ P after := by
  rw [RegisterRange.process_write _ writable open_, callback]
  unfold Fits
  by_cases aligned : addr.toNat % r.alignment = 0 ∧ n % r.alignment = 0
  case neg => simp [aligned]
  by_cases fits : (r.toLocal addr).toNat + n ≤ r.size
  case neg => simp [aligned, fits]
  simp [aligned, fits, Except.mapError, Except.map]

theorem raises_iff : Raises p s n addr value ↔
    ∃ data t, route (plainRanges p) (.write value) addr s = .ok (data, t) ∧ Plic.Deliverable p t 0 := by
  unfold Raises route
  by_cases priorities : (regsInterruptPriorities p).contains addr = true
  · have found : (plainRanges p).find? (·.contains addr) = some (regsInterruptPriorities p) :=
      List.find?_cons_of_pos priorities
    rw [if_pos priorities]
    simp only [found]
    rw [exists_process_iff rfl rfl rfl]
    refine and_congr_right fun _ => exists_congr fun i => and_congr_right fun known => ?_
    have below := (Params.mem_ids.mp known).2
    have clamped := (priority_postWrite ((regsInterruptPriorities p).setMem
      (((regsInterruptPriorities p).mem s).write ((regsInterruptPriorities p).toLocal addr) n value) s)
      (Nat.le_of_lt below)).trans (if_pos below)
    refine and_congr_right fun _ => and_congr_right fun _ => ?_
    rw [clamped]
    rfl
  rw [if_neg priorities]
  by_cases pending : (regsPendingInterrupts p).contains addr = true
  · have found : (plainRanges p).find? (·.contains addr) = some (regsPendingInterrupts p) := by
      simp [plainRanges, priorities, pending]
    rw [if_pos pending]
    simp only [found, false_iff]
    rintro ⟨data, t, ran, -⟩
    unfold RegisterRange.process at ran
    split at ran <;> cases ran
  rw [if_neg pending]
  by_cases enables : (regsHartEnabledInterrupts p).contains addr = true
  · have found : (plainRanges p).find? (·.contains addr) = some (regsHartEnabledInterrupts p) := by
      simp [plainRanges, priorities, pending, enables]
    rw [if_pos enables]
    simp only [found]
    rw [exists_process_iff rfl rfl rfl]
    rfl
  rw [if_neg enables]
  by_cases hart : (plainHartConfig p).contains addr = true
  · have found : (plainRanges p).find? (·.contains addr) = some (plainHartConfig p) :=
      (find_hartConfig hart).2
    rw [if_pos hart]
    simp only [found]
    rw [exists_process_iff rfl rfl rfl]
    rfl
  · have none : (plainRanges p).find? (·.contains addr) = none := by
      simp [plainRanges, priorities, pending, enables, hart]
    rw [if_neg hart]
    simp [none]

/-- A plain write of some bytes is what the access does. -/
theorem step_of_plain (single : p.numberCores = 1) (other : ¬ (n = 4 ∧ addr = claimAddr 0))
    {data : BitVec (8 * n)} (plain : route (plainRanges p) (.write value) addr s = .ok (data, t)) :
    step p s (.write n addr value) = .ok (none, t) ∨ t = s := by
  have moved : transport p (.write value) addr s = _ := transport_write value
  rw [plain] at moved
  simp only at moved
  unfold step
  simp only [moved]
  by_cases inside : (plainHartConfig p).contains addr = true
  case neg =>
    rw [if_neg inside]
    exact .inl rfl
  obtain ⟨r, found, aligned, -, fits, go, u, before, after⟩ := route_write_found plain
  obtain rfl := Option.some.inj ((find_hartConfig inside).2.symm.trans found)
  have aligned : addr.toNat % 4 = 0 ∧ n % 4 = 0 := aligned
  have low := (contains_hartConfig.mp inside).1
  have start : (plainHartConfig p).start.toNat = 0x200000 := rfl
  have whole : (plainHartConfig p).size = 8 * p.numberCores := rfl
  have offset := (plainHartConfig p).toNat_toLocal addr low
  rw [if_pos inside, show addr - 0x200000 = (plainHartConfig p).toLocal addr from rfl]
  unfold Plic.postWriteHartConfig
  rw [if_pos (by omega)]
  by_cases odd : ((plainHartConfig p).toLocal addr).toNat / 4 % 2 = 1
  case neg =>
    simp only [odd, if_false]
    exact .inl rfl
  -- the claim register, with nothing written to it
  refine .inr ?_
  have nothing : n = 0 := by
    have not4 : n ≠ 4 := fun size =>
      other ⟨size, claim_of_odd single inside fits (by omega) odd size⟩
    omega
  subst nothing
  cases before
  rcases after with ⟨done, -⟩ | ⟨-, after⟩
  · cases done
  · cases after
    rfl

end Raises

/-- A write makes nothing deliverable behind the back of the hart and of `run`; and there is no
completion while something deliverable waits for `run` and the hart has nothing. -/
def Mild (p : Params) (s : Plic) : Input → Prop
  | .write n addr value =>
      if n = 4 ∧ addr = claimAddr 0 then
        ¬ (s.eRun = true ∧ s.hartEip 0 = false ∧ Plic.Deliverable p s 0)
      else s.eRun = false → s.hartEip 0 = false → ¬ Raises p s n addr value
  | _ => True

instance {a : Input} : Decidable (Mild p s a) :=
  match a with
  | .write _ _ _ => inferInstanceAs (Decidable (ite ..))
  | .run => .isTrue trivial
  | .trigger _ => .isTrue trivial
  | .read _ _ => .isTrue trivial

theorem mild_completion_iff {value : BitVec 32} : Mild p s (.write 4 (claimAddr 0) value) ↔
    ¬ (s.eRun = true ∧ s.hartEip 0 = false ∧ Plic.Deliverable p s 0) := by
  simp only [Mild, and_self, if_true]

theorem mild_other_iff {n : Nat} {addr : BitVec 64} {value : BitVec (8 * n)}
    (other : ¬ (n = 4 ∧ addr = claimAddr 0)) : Mild p s (.write n addr value) ↔
      (s.eRun = false → s.hartEip 0 = false → ¬ Raises p s n addr value) :=
  iff_of_eq (if_neg other)

/-! ## The line -/

/-- Unless `run` is to come, the hart was told of what is deliverable. -/
def Signalled (p : Params) (s : Plic) : Prop :=
  s.eRun = false → Plic.Deliverable p s 0 → s.hartEip 0 = true ∧ s.line 0 = true

/-- The hart knows of what is deliverable, or `run` is to come. -/
structure Served (p : Params) (s : Plic) : Prop where
  line : s.line 0 = s.hartEip 0
  known : Plic.Deliverable p s 0 → s.hartEip 0 = true ∨ s.eRun = true

theorem served_iff_signalled (line : s.line 0 = s.hartEip 0) : Served p s ↔ Signalled p s := by
  constructor
  · intro served quiescent something
    rcases served.known something with eip | outstanding
    · exact ⟨eip, line.trans eip⟩
    · rw [quiescent] at outstanding
      cases outstanding
  · intro signalled
    refine ⟨line, fun something => ?_⟩
    cases outstanding : s.eRun with
    | true => exact .inr rfl
    | false => exact .inl (signalled outstanding something).1

theorem served_init : Served p (init p) := by
  refine ⟨rfl, ?_⟩
  rintro ⟨i, -, enabled, -⟩
  rw [Plic.enabled_init] at enabled
  cases enabled

/-- A claim makes nothing deliverable. -/
theorem deliverable_of_claimed (something : Plic.Deliverable p (s.claimed p 0) 0) : Plic.Deliverable p s 0 := by
  obtain ⟨i, known, enabled, pending, above⟩ := something
  have bound := (Params.mem_ids.mp known).2
  have interrupts := p.interrupts
  rw [Plic.threshold_claimed] at above
  rw [Plic.pending_claimed (by omega)] at pending
  split at pending
  case isTrue => cases pending
  case isFalse => exact ⟨i, known, enabled, pending, above⟩

theorem known_activated (known : Plic.Deliverable p s 0 → s.hartEip 0 = true ∨ s.eRun = true)
    (something : Plic.Deliverable p (s.activated p) 0) :
    (s.activated p).hartEip 0 = true ∨ (s.activated p).eRun = true := by
  unfold Plic.activated at *
  by_cases outstanding : s.eRun = true
  case neg =>
    rw [if_neg outstanding] at something ⊢
    exact known something
  case pos =>
    rw [if_pos outstanding] at something ⊢
    by_cases raise : s.hartEip 0 = false ∧ Plic.Deliverable p s 0
    · rw [if_pos raise]
      exact .inl rfl
    · rw [if_neg raise] at something ⊢
      exact .inl (Bool.of_not_eq_false fun clear => raise ⟨clear, something⟩)

/-- The line is a copy of `hart_eip` behind every step. -/
theorem line_step {a : Input} {b : Answer} (single : p.numberCores = 1)
    (line : s.line 0 = s.hartEip 0) (ran : step p s a = .ok (b, t)) : t.line 0 = t.hartEip 0 := by
  cases step_did single ran with
  | trigger => exact line
  | read => exact line
  | claim => exact line
  | write other plain =>
    obtain ⟨-, eip, moved, -⟩ := route_plain_frame plain
    rw [moved, eip]
    exact line
  | complete => rfl
  | again something eip => exact eip.symm
  | run =>
    unfold Plic.activated
    split
    · split
      · rfl
      · exact line
    · exact line

/-- One step, where it is a mild one. -/
theorem served_step {a : Input} {b : Answer} (single : p.numberCores = 1) (served : Served p s)
    (mild : Mild p s a) (ran : step p s a = .ok (b, t)) : Served p t := by
  refine ⟨line_step single served.line ran, fun something => ?_⟩
  cases step_did single ran with
  | trigger => exact .inr rfl
  | read => exact served.known something
  | claim => exact served.known (deliverable_of_claimed something)
  | write other plain =>
    obtain ⟨-, eip, -, outstanding⟩ := route_plain_frame plain
    rw [eip, outstanding]
    by_contra neither
    rw [not_or, Bool.not_eq_true, Bool.not_eq_true] at neither
    exact (mild_other_iff other).mp mild neither.2 neither.1 (raises_iff.mpr ⟨_, _, plain, something⟩)
  | complete nothing => exact absurd something nothing
  | again something eip => exact .inl eip
  | run => exact known_activated served.known something

/-- The assertion on `hart_eip` is out of reach for a mild step. -/
theorem step_ne_hartEip {a : Input} (single : p.numberCores = 1) (served : Served p s)
    (mild : Mild p s a) : step p s a ≠ .error (.device .hartEip) := by
  intro failed
  cases a with
  | trigger irqId =>
    have called := error_of_mapError (error_of_map failed)
    obtain ⟨e, called, same⟩ := called
    cases same
    exact Plic.gatewayTriggerInterrupt_ne_hartEip called
  | read n addr =>
    obtain ⟨r, known, -, -, called⟩ := route_read_device (error_of_map failed)
    simp only [registerRanges, List.mem_cons, List.not_mem_nil, or_false] at known
    rcases known with rfl | rfl | rfl | rfl
    · cases called
    · cases called
    · cases called
    · exact Plic.preReadHartConfig_ne_hartEip called
  | write n addr value =>
    obtain ⟨r, known, inside, fits, early | ⟨u, -, late⟩⟩ := route_write_device (error_of_map failed)
    · simp only [registerRanges, List.mem_cons, List.not_mem_nil, or_false] at known
      rcases known with rfl | rfl | rfl | rfl <;> cases early
    · simp only [registerRanges, List.mem_cons, List.not_mem_nil, or_false] at known
      rcases known with rfl | rfl | rfl | rfl
      · cases late
      · cases late
      · cases late
      · obtain ⟨aligned, odd, size⟩ := Plic.hartEip_of_postWriteHartConfig late
        obtain rfl := claim_of_odd single inside fits aligned odd size
        subst size
        rw [step_completion p.core (by omega)] at failed
        split at failed
        case isFalse => cases failed
        case isTrue something =>
          have something := (Plic.deliverable_setClaimResponse value).mp something
          cases eip : s.hartEip 0 with
          | true =>
            rw [if_pos eip] at failed
            cases failed
          | false =>
            rcases served.known something with set | outstanding
            · exact Bool.false_ne_true (eip.symm.trans set)
            · exact mild_completion_iff.mp mild ⟨outstanding, eip, something⟩
  | run =>
    unfold step at failed
    rw [run_single single] at failed
    cases failed

/-- A step that is not mild fails the assertion or leaves the hart behind. -/
theorem mild_iff {a : Input} (single : p.numberCores = 1) (served : Served p s) :
    Mild p s a ↔ step p s a ≠ .error (.device .hartEip) ∧
      ∀ b t, step p s a = .ok (b, t) → Signalled p t := by
  constructor
  · intro mild
    refine ⟨step_ne_hartEip single served mild, fun b t ran => ?_⟩
    have after := served_step single served mild ran
    exact (served_iff_signalled after.line).mp after
  · rintro ⟨asserted, signalled⟩
    cases a with
    | trigger irqId => trivial
    | read n addr => trivial
    | run => trivial
    | write n addr value =>
      by_cases completes : n = 4 ∧ addr = claimAddr 0
      case pos =>
        obtain ⟨rfl, rfl⟩ := completes
        rw [mild_completion_iff]
        rintro ⟨-, eip, something⟩
        have something := (Plic.deliverable_setClaimResponse value).mpr something
        refine asserted ?_
        rw [step_completion p.core (by omega), if_pos something, if_neg (by simp [eip])]
      case neg =>
        rw [mild_other_iff completes]
        intro quiescent eip raises
        obtain ⟨data, t, plain, something⟩ := raises_iff.mp raises
        obtain ⟨-, eip', -, outstanding⟩ := route_plain_frame plain
        rcases step_of_plain single completes plain with ran | rfl
        · have told := signalled _ _ ran (outstanding.trans quiescent) something
          rw [eip', eip] at told
          cases told.1
        · rcases served.known something with set | soon
          · exact Bool.false_ne_true (eip.symm.trans set)
          · exact Bool.false_ne_true (quiescent.symm.trans soon)

/-- Where all steps are mild the line follows what is deliverable and the assertion of the
completion holds; and the next step breaks neither exactly if it is a mild one too. -/
theorem served_runs {log : List (Input × Answer)} (single : p.numberCores = 1)
    (run : Runs (step p) (Mild p) (init p) log s) :
    Signalled p s ∧ ∀ a, Mild p s a ↔ step p s a ≠ .error (.device .hartEip) ∧
      ∀ b t, step p s a = .ok (b, t) → Signalled p t := by
  have served : Served p s :=
    run.invariant served_init fun served mild ran => served_step single served mild ran
  exact ⟨(served_iff_signalled served.line).mp served, fun a => mild_iff single served⟩

theorem served_runs_hifive : ∃ log s, Runs (step hifive) (Mild hifive) (init hifive) log s ∧
    Plic.Deliverable hifive s 0 ∧ s.hartEip 0 = true ∧ s.line 0 = true := by
  have signalled : ends (step hifive) (Mild hifive) (init hifive)
      [.write 4 0x2000 0x8#32, .trigger 3, .run]
      (fun s => s.eRun = false ∧ Plic.Deliverable hifive s 0) = true := by decide +kernel
  obtain ⟨log, s, run, quiescent, something⟩ := exists_runs_of_ends signalled
  exact ⟨log, s, run, something, (served_runs rfl run).1 quiescent something⟩

/-- A completion before `run` fails its assertion, and an interrupt that is enabled late is
never signalled. -/
theorem not_served :
    (∃ log s, Runs (step hifive) (fun _ _ => True) (init hifive) log s ∧
      step hifive s (.write 4 (claimAddr 0) 3#32) = .error (.device .hartEip)) ∧
    ∃ log s, Runs (step hifive) (fun _ _ => True) (init hifive) log s ∧
      s.eRun = false ∧ Plic.Deliverable hifive s 0 ∧ s.hartEip 0 = false := by
  have early : ends (step hifive) (fun _ _ => True) (init hifive) [.write 4 0x2000 0x8#32, .trigger 3]
      (fun s => Plic.Deliverable hifive (s.setClaimResponse 0 3#32) 0 ∧ s.hartEip 0 = false) = true := by
    decide +kernel
  have late : ends (step hifive) (fun _ _ => True) (init hifive) [.trigger 3, .run, .write 4 0x2000 0x8#32]
      (fun s => s.eRun = false ∧ Plic.Deliverable hifive s 0 ∧ s.hartEip 0 = false) = true := by
    decide +kernel
  obtain ⟨log, s, run, something, clear⟩ := exists_runs_of_ends early
  refine ⟨⟨log, s, run, ?_⟩, exists_runs_of_ends late⟩
  rw [step_completion (by decide) (by decide), if_pos something, if_neg (by simp [clear])]

end RiscvVp.Fe310
