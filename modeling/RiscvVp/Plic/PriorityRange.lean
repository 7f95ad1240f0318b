/-
# RiscvVp.Plic.PriorityRange -- which priorities stay in their range

Both controllers cut the priorities behind a write.  The loop of the FE310 ends before the last
element, and the FU540 cuts the word that a write starts with, so that a wide write leaves the words
behind it as they came.  Where the writes bring nothing too high to these places, all priorities stay
in range.
-/
import RiscvVp.Plic.Fe310Lines
import RiscvVp.Plic.Fu540Priorities

namespace RiscvVp

set_option autoImplicit false

open Lib

namespace Fe310

variable {p : Params} {s t : Plic}

def Plic.InRange (p : Params) (s : Plic) : Prop := ∀ i ≤ p.numberInterrupts, s.priority i ≤ p.maxPriority

def writesPriorities (p : Params) : Input → Bool
  | .write _ addr _ => (regsInterruptPriorities p).contains addr
  | _ => false

/-- The priorities when the bytes are copied, before the callback. -/
def copied (p : Params) (s : Plic) : Input → ByteMemory
  | .write n addr value =>
      if (regsInterruptPriorities p).contains addr then
        s.interruptPriorities.write ((regsInterruptPriorities p).toLocal addr) n value
      else s.interruptPriorities
  | _ => s.interruptPriorities

/-- The last element is in range as it comes. -/
def LastInRange (p : Params) (s : Plic) (a : Input) : Prop :=
  (copied p s a).word p.numberInterrupts ≤ p.maxPriority

instance {a : Input} : Decidable (LastInRange p s a) := inferInstanceAs (Decidable (_ ≤ _))

/-! ## The callbacks -/

theorem clampPriority_le (p : Params) (value : BitVec 32) : clampPriority p value ≤ p.maxPriority := by
  unfold clampPriority
  split
  case isTrue => exact BitVec.le_refl _
  case isFalse fine => exact BitVec.not_lt.mp fine

theorem preReadHartConfig_frame {addr : BitVec 64} {n : Nat} (ran : Plic.preReadHartConfig p addr n s = .ok t) :
    t.interruptPriorities = s.interruptPriorities := by
  unfold Plic.preReadHartConfig at ran
  obtain ⟨-, ran⟩ := ok_of_guard ran
  simp only at ran
  split at ran
  case isFalse =>
    cases ran
    rfl
  obtain ⟨-, ran⟩ := ok_of_guard ran
  split at ran
  case h_1 => cases ran
  obtain ⟨-, ran⟩ := ok_of_guard ran
  unfold Plic.clearPendingInterrupt at ran
  obtain ⟨-, ran⟩ := ok_of_guard ran
  obtain ⟨-, ran⟩ := ok_of_guard ran
  cases ran
  rfl

theorem postWriteHartConfig_frame {addr : BitVec 64} {n : Nat} (ran : Plic.postWriteHartConfig p addr n s = .ok t) :
    t.interruptPriorities = s.interruptPriorities := by
  unfold Plic.postWriteHartConfig at ran
  obtain ⟨-, ran⟩ := ok_of_guard ran
  simp only at ran
  split at ran
  case isFalse =>
    cases ran
    rfl
  obtain ⟨-, ran⟩ := ok_of_guard ran
  split at ran
  case h_1 => cases ran
  obtain ⟨-, ran⟩ := ok_of_guard ran
  split at ran
  case isFalse =>
    cases ran
    rfl
  obtain ⟨-, ran⟩ := ok_of_guard ran
  cases ran
  rfl

theorem signal_frame {hart : Nat} (ran : s.signal p hart = .ok t) : t.interruptPriorities = s.interruptPriorities := by
  unfold Plic.signal at ran
  split at ran
  case isTrue =>
    cases ran
    rfl
  split at ran
  · cases ran
  · cases ran
    rfl
  · cases ran
    rfl

theorem run_frame (ran : s.run p = .ok t) : t.interruptPriorities = s.interruptPriorities := by
  unfold Plic.run at ran
  split at ran
  case isFalse =>
    cases ran
    rfl
  exact foldlM_ok (P := fun _ u => u.interruptPriorities = s.interruptPriorities) rfl
    (fun same _ one => (signal_frame one).trans same) ran

/-! ## Steps and runs -/

/-- What a write makes of an element. -/
theorem priority_of_write {n : Nat} {addr : BitVec 64} {value data : BitVec (8 * n)}
    (ran : transport p (.write value) addr s = .ok (data, t)) {i : Nat} (known : i ≤ p.numberInterrupts) :
    t.priority i =
      if writesPriorities p (.write n addr value) = true ∧ i < p.numberInterrupts then
        clampPriority p ((copied p s (.write n addr value)).word i)
      else (copied p s (.write n addr value)).word i := by
  obtain ⟨r, found, -, writable, -, go, u, before, after⟩ := route_write_found ran
  by_cases inside : (regsInterruptPriorities p).contains addr = true
  · have first : (registerRanges p).find? (·.contains addr) = some (regsInterruptPriorities p) :=
      List.find?_cons_of_pos inside
    obtain rfl := Option.some.inj (first.symm.trans found)
    cases before
    rcases after with ⟨done, -⟩ | ⟨-, after⟩
    · cases done
    cases after
    have memory : copied p s (.write n addr value) =
        s.interruptPriorities.write ((regsInterruptPriorities p).toLocal addr) n value := if_pos inside
    rw [memory]
    refine (priority_postWrite _ known).trans (if_congr ?_ rfl rfl)
    exact ⟨fun below => ⟨inside, below⟩, And.right⟩
  · have memory : copied p s (.write n addr value) = s.interruptPriorities := if_neg inside
    rw [memory, if_neg fun both => inside both.1]
    have other := List.mem_of_find?_eq_some found
    have here : r.contains addr = true := by simpa using List.find?_some found
    simp only [registerRanges, List.mem_cons, List.not_mem_nil, or_false] at other
    have kept : t.interruptPriorities = s.interruptPriorities := by
      rcases other with rfl | rfl | rfl | rfl
      · exact absurd here inside
      · cases writable
      · cases before
        rcases after with ⟨done, -⟩ | ⟨-, after⟩
        · cases done
        · cases after
          rfl
      · cases before
        rcases after with ⟨done, -⟩ | ⟨-, after⟩
        · cases done
        · rw [show (regsHartConfig p).postWrite = Plic.postWriteHartConfig p from rfl] at after
          have kept := postWriteHartConfig_frame after
          exact kept
    unfold Plic.priority
    rw [kept]

/-- One step. -/
theorem priority_step {a : Input} {b : Answer} (ran : step p s a = .ok (b, t)) {i : Nat} (known : i ≤ p.numberInterrupts) :
    t.priority i = if writesPriorities p a = true ∧ i < p.numberInterrupts then clampPriority p ((copied p s a).word i)
      else (copied p s a).word i := by
  cases a with
  | trigger irqId =>
    obtain ⟨u, called, same⟩ := ok_of_map ran
    obtain ⟨-, rfl⟩ := Prod.mk.inj same
    obtain ⟨-, -, rfl⟩ := Plic.gatewayTriggerInterrupt_eq_ok (ok_of_mapError called)
    rfl
  | read n addr =>
    obtain ⟨⟨data, u⟩, called, same⟩ := ok_of_map ran
    obtain ⟨-, rfl⟩ := Prod.mk.inj same
    obtain ⟨r, among, -, -, called, -⟩ := route_read_ok called
    simp only [registerRanges, List.mem_cons, List.not_mem_nil, or_false] at among
    have kept : u.interruptPriorities = s.interruptPriorities := by
      rcases among with rfl | rfl | rfl | rfl
      · cases called
        rfl
      · cases called
        rfl
      · cases called
        rfl
      · exact preReadHartConfig_frame called
    show u.interruptPriorities.word i = _
    rw [kept]
    rfl
  | write n addr value =>
    obtain ⟨⟨data, u⟩, called, same⟩ := ok_of_map ran
    obtain ⟨-, rfl⟩ := Prod.mk.inj same
    exact priority_of_write called known
  | run =>
    obtain ⟨u, called, same⟩ := ok_of_map ran
    obtain ⟨-, rfl⟩ := Prod.mk.inj same
    show u.interruptPriorities.word i = _
    rw [run_frame (ok_of_mapError called)]
    rfl

/-- A write to the priorities leaves them in range exactly when the last one comes so. -/
theorem inRange_of_write {a : Input} {b : Answer} (ran : step p s a = .ok (b, t)) (writes : writesPriorities p a = true) :
    t.InRange p ↔ LastInRange p s a := by
  constructor
  · intro fine
    have last := fine p.numberInterrupts (Nat.le_refl _)
    rw [priority_step ran (Nat.le_refl _), if_neg fun both => Nat.lt_irrefl _ both.2] at last
    exact last
  · intro last i known
    rw [priority_step ran known]
    by_cases below : i < p.numberInterrupts
    · rw [if_pos ⟨writes, below⟩]
      exact clampPriority_le p _
    · have same : i = p.numberInterrupts := by omega
      rw [if_neg fun both => below both.2, same]
      exact last

theorem copied_of_other {a : Input} (other : writesPriorities p a = false) : copied p s a = s.interruptPriorities := by
  cases a with
  | write n addr value => exact if_neg (Bool.eq_false_iff.mp other)
  | trigger irqId => rfl
  | read n addr => rfl
  | run => rfl

theorem inRange_of_other {a : Input} {b : Answer} (ran : step p s a = .ok (b, t))
    (other : writesPriorities p a = false) (fine : s.InRange p) : t.InRange p := by
  intro i known
  rw [priority_step ran known, if_neg fun both => Bool.false_ne_true (other.symm.trans both.1), copied_of_other other]
  exact fine i known

/-- The constructor sets every element but the last to 1. -/
theorem priority_init {i : Nat} (known : i ≤ p.numberInterrupts) :
    (init p).priority i = if i < p.numberInterrupts then 1#32 else 0#32 := by
  have interrupts := p.interrupts
  have byte (k : Nat) (near : k < 4) : (init p).interruptPriorities (BitVec.ofNat 64 (4 * i) + BitVec.ofNat 64 k) =
      if k = 0 ∧ i < p.numberInterrupts then 1 else 0 := by
    have place : (BitVec.ofNat 64 (4 * i) + BitVec.ofNat 64 k).toNat = 4 * i + k := by
      rw [BitVec.toNat_add, BitVec.toNat_ofNat, BitVec.toNat_ofNat]
      omega
    show (if (BitVec.ofNat 64 (4 * i) + BitVec.ofNat 64 k).toNat % 4 = 0 ∧ _ then _ else _) = _
    rw [place]
    exact if_congr (by omega) rfl rfl
  have constant : (init p).priority i = ByteMemory.read (fun a => if a = 0 ∧ i < p.numberInterrupts then 1 else 0) 0 4 := by
    refine ByteMemory.read_congr fun k near => ?_
    rw [byte k near, zero_add]
    refine if_congr (and_congr_left fun _ => ?_) rfl rfl
    constructor
    · rintro rfl
      rfl
    · intro zero
      have value : (BitVec.ofNat 64 k).toNat = 0 := by
        rw [zero]
        rfl
      rw [BitVec.toNat_ofNat] at value
      omega
  rw [constant]
  by_cases below : i < p.numberInterrupts
  · simp only [below, and_true, if_true]
    decide
  · simp only [below, and_false, if_false]
    decide

/-- Where the last element always comes in range, the priorities are in range as soon as they have been
written, and from the start if 1 is. -/
theorem inRange_of_runs {log : List (Input × Answer)} (run : Runs (step p) (LastInRange p) (init p) log s)
    (some : 0 < p.maxPriority ∨ ∃ turn ∈ log, writesPriorities p turn.1 = true) : s.InRange p := by
  have both : s.priority p.numberInterrupts ≤ p.maxPriority ∧
      (0 < p.maxPriority ∨ (∃ turn ∈ log, writesPriorities p turn.1 = true) → s.InRange p) := by
    refine run.invariant_log (I := fun log s => s.priority p.numberInterrupts ≤ p.maxPriority ∧
      (0 < p.maxPriority ∨ (∃ turn ∈ log, writesPriorities p turn.1 = true) → s.InRange p)) ⟨?_, ?_⟩ ?_
    · rw [priority_init (Nat.le_refl _), if_neg (Nat.lt_irrefl _)]
      exact BitVec.le_def.mpr (Nat.zero_le _)
    · rintro (above | ⟨turn, absurd, -⟩)
      · intro i known
        rw [priority_init known, BitVec.le_def]
        rw [BitVec.lt_def] at above
        have above : 0 < p.maxPriority.toNat := above
        split
        · exact above
        · exact Nat.zero_le _
      · cases absurd
    · rintro log t a b u ⟨last, fine⟩ allowed ran
      have kept := priority_step ran (Nat.le_refl p.numberInterrupts)
      rw [if_neg fun both => Nat.lt_irrefl _ both.2] at kept
      refine ⟨by rw [kept]; exact allowed, fun some => ?_⟩
      by_cases writes : writesPriorities p a = true
      · exact (inRange_of_write ran writes).mpr allowed
      · have other := Bool.eq_false_iff.mpr writes
        refine inRange_of_other ran other (fine (some.imp id ?_))
        rintro ⟨turn, among, does⟩
        rcases List.mem_append.mp among with old | new
        · exact ⟨turn, old, does⟩
        · rw [List.mem_singleton.mp new] at does
          exact absurd does writes
  exact both.2 some

end Fe310

namespace Fu540

variable {harts : Nat} {s t : Plic}

def Plic.InRange (s : Plic) : Prop := ∀ i < numirq, s.priority i ≤ maxPrio

/-- The words behind the first one of a write are in range as they come. -/
def RestInRange (a : Input) : Prop :=
  ∀ k ∈ List.range' 1 numirq, startsAt k a = false → ∀ word ∈ wordWritten k a, word ≤ maxPrio

instance {a : Input} : Decidable (RestInRange a) :=
  -- not by a look at all words
  have (k : Nat) : Decidable (∀ word ∈ wordWritten k a, word ≤ maxPrio) := Option.decidableForallMem _
  inferInstanceAs (Decidable (∀ k ∈ List.range' 1 numirq, _))

theorem clampPriority_le (value : BitVec 32) : clampPriority value ≤ maxPrio := by
  unfold clampPriority
  split
  case isTrue => exact BitVec.le_refl _
  case isFalse fine => exact BitVec.not_lt.mp fine

/-- A step leaves the priorities in range exactly when the rest of a write comes so. -/
theorem inRange_step {a : Input} {b : Answer} (ran : step harts s a = .ok (b, t)) (fine : s.InRange) :
    t.InRange ↔ RestInRange a := by
  have next {k : Nat} (known : 0 < k ∧ k ≤ numirq) := priority_step ran known
  constructor
  · intro after k among apart word brought
    have bounds := List.mem_range'_1.mp among
    have known : 0 < k ∧ k ≤ numirq := by omega
    have held := after (k - 1) (by omega)
    rw [next known] at held
    unfold storedNext at held
    rw [apart, Option.mem_def.mp brought] at held
    exact held
  · intro rest i below
    have known : 0 < i + 1 ∧ i + 1 ≤ numirq := ⟨Nat.succ_pos i, below⟩
    have held := next known
    rw [Nat.add_sub_cancel] at held
    rw [held]
    unfold storedNext
    cases starts : startsAt (i + 1) a with
    | true => exact clampPriority_le _
    | false =>
      simp only [Bool.false_eq_true, if_false]
      cases brought : wordWritten (i + 1) a with
      | none => exact fine i below
      | some word => exact rest (i + 1) (by rw [List.mem_range'_1]; omega) starts word brought

theorem inRange_of_runs {log : List (Input × Answer)} (run : Runs (step harts) (fun _ => RestInRange) init log s) :
    s.InRange := by
  refine run.invariant (fun i _ => ?_) fun fine rest ran => (inRange_step ran fine).mpr rest
  have zero : init.priority i = 0#32 := ByteMemory.word_zero i
  rw [zero]
  exact BitVec.le_def.mpr (Nat.zero_le _)

end Fu540

/-! ## Both controllers -/

/-- The priorities of the FE310 are in range where every write brings the last one in range, those of the
FU540 where every write brings the words behind its first one in range. -/
theorem priorities_inRange (p : Fe310.Params) (log : List (Fe310.Input × Fe310.Answer)) (s : Fe310.Plic)
    (harts : Nat) (log' : List (Fu540.Input × Fu540.Answer)) (s' : Fu540.Plic) :
    (Runs (Fe310.step p) (Fe310.LastInRange p) (Fe310.init p) log s →
      0 < p.maxPriority ∨ (∃ turn ∈ log, Fe310.writesPriorities p turn.1 = true) →
        ∀ i ≤ p.numberInterrupts, s.priority i ≤ p.maxPriority) ∧
    (Runs (Fu540.step harts) (fun _ => Fu540.RestInRange) Fu540.init log' s' →
      ∀ i < Fu540.numirq, s'.priority i ≤ Fu540.maxPrio) :=
  ⟨fun run some => Fe310.inRange_of_runs run some, fun run => Fu540.inRange_of_runs run⟩

/-- An element that is cut, and a write of two words of which the first is cut. -/
theorem priorities_inRange_cut :
    (∃ log s, Runs (Fe310.step Fe310.hifive) (Fe310.LastInRange Fe310.hifive) (Fe310.init Fe310.hifive) log s ∧
      (log.map Prod.fst = [.write 4 0xD0 9#32]) ∧ ∀ i ≤ 53, s.priority i ≤ Fe310.hifive.maxPriority) ∧
    ∃ log s, Runs (Fu540.step 1) (fun _ => Fu540.RestInRange) Fu540.init log s ∧
      (log.map Prod.fst = [.write 8 0x4 0x700000009#64]) ∧ ∀ i < Fu540.numirq, s.priority i ≤ Fu540.maxPrio := by
  constructor
  · obtain ⟨s, took⟩ : ∃ t, Fe310.step Fe310.hifive (Fe310.init Fe310.hifive) (.write 4 0xD0 9#32) = .ok (none, t) :=
      ⟨_, rfl⟩
    have fine : Fe310.LastInRange Fe310.hifive (Fe310.init Fe310.hifive) (.write 4 0xD0 9#32) := by decide +kernel
    have run := Runs.start.next fine took
    exact ⟨_, s, run, rfl, (priorities_inRange Fe310.hifive _ s 1 [] Fu540.init).1 run (.inl (by decide))⟩
  · obtain ⟨s, took⟩ : ∃ t, Fu540.step 1 Fu540.init (.write 8 0x4 0x700000009#64) = .ok (none, t) := ⟨_, rfl⟩
    have fine : Fu540.RestInRange (.write 8 0x4 0x700000009#64) := by decide +kernel
    have run : Runs (Fu540.step 1) (fun _ => Fu540.RestInRange) Fu540.init _ s := Runs.start.next fine took
    exact ⟨_, s, run, rfl, (priorities_inRange Fe310.hifive [] (Fe310.init Fe310.hifive) 1 _ s).2 run⟩

/-- The last element of the FE310, and the second word of a write to the FU540. -/
theorem not_priorities_inRange :
    (∃ log s, Runs (Fe310.step Fe310.hifive) (fun _ _ => True) (Fe310.init Fe310.hifive) log s ∧
      ¬ s.priority 53 ≤ Fe310.hifive.maxPriority) ∧
    ∃ log s, Runs (Fu540.step 1) (fun _ _ => True) Fu540.init log s ∧ ¬ s.priority 1 ≤ Fu540.maxPrio := by
  constructor
  · obtain ⟨s, took⟩ : ∃ t, Fe310.step Fe310.hifive (Fe310.init Fe310.hifive) (.write 4 0xD4 9#32) = .ok (none, t) :=
      ⟨_, rfl⟩
    refine ⟨_, s, Runs.start.next trivial took, ?_⟩
    have held := Fe310.priority_step took (i := 53) (by decide)
    rw [if_neg (by decide)] at held
    rw [held]
    decide +kernel
  · have second : ends (Fu540.step 1) (fun _ _ => True) Fu540.init [.write 8 0x4 0x900000007#64]
        (fun s => ¬ s.priority 1 ≤ Fu540.maxPrio) = true := by decide +kernel
    exact exists_runs_of_ends second

end RiscvVp
