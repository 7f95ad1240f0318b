/-
# RiscvVp.Plic.Fe310Steps -- what the controller of the FE310 does in a step

The loop over the interrupts finds the first of the highest priority (`best`) as long as the
hart exists.  With one core every access is described by a few cases: the claim read at
0x200004, the completion write to the same place, and accesses that only move bytes.
-/
import RiscvVp.Plic.Fe310

namespace RiscvVp.Fe310

set_option autoImplicit false

open Lib

variable {p : Params} {s t : Plic} {hart : Nat}

/-- The interrupts the loop visits. -/
def Params.ids (p : Params) : List Nat := List.range' 1 (p.numberInterrupts - 1)

theorem Params.mem_ids {i : Nat} : i ∈ p.ids ↔ 0 < i ∧ i < p.numberInterrupts := by
  unfold Params.ids
  rw [List.mem_range'_1]
  omega

theorem Params.sorted_ids : p.ids.Pairwise (· ≤ ·) :=
  List.pairwise_le_range' ..

theorem Params.entries (p : Params) : 0 < p.numberInterruptEntries := by
  have interrupt := p.interrupt
  have room := p.room
  omega

/-- A hart and a word for an interrupt stay inside the enable words, rows or not. -/
theorem Params.enabledIndex_lt (here : hart < p.numberCores) {i : Nat} (known : i < p.numberInterrupts) :
    Plic.enabledIndex hart (i / 32) < p.numberInterruptEntries * p.numberCores := by
  have room := p.room
  have word : i / 32 < p.numberInterruptEntries := by omega
  have enough : (i / 32 + 1) * (hart + 1) ≤ p.numberInterruptEntries * p.numberCores :=
    Nat.mul_le_mul word here
  rw [Nat.succ_mul, Nat.mul_succ] at enough
  unfold Plic.enabledIndex
  omega

namespace Plic

/-- The priority of an interrupt among those that `hart` may take, 0 when it may not. -/
def claimPriority (s : Plic) (hart : Nat) (considerThreshold : Bool) (i : Nat) : Nat :=
  if s.enabled hart i = true ∧ s.pending i = true ∧
      (considerThreshold = true → s.threshold hart < s.priority i) then (s.priority i).toNat
  else 0

def best (p : Params) (s : Plic) (hart : Nat) (considerThreshold : Bool) : Nat :=
  arbiter (s.claimPriority hart considerThreshold) p.ids

/-- Something to signal to `hart`. -/
def Deliverable (p : Params) (s : Plic) (hart : Nat) : Prop :=
  ∃ i ∈ p.ids, s.enabled hart i = true ∧ s.pending i = true ∧ s.threshold hart < s.priority i

instance : Decidable (Deliverable p s hart) :=
  inferInstanceAs (Decidable (∃ i ∈ p.ids, _))

theorem visit_eq {considerThreshold : Bool} {i : Nat} (here : hart < p.numberCores) (known : i ∈ p.ids)
    (b : Nat × Nat) : s.visit p hart considerThreshold b i =
      .ok (arbitrate (s.claimPriority hart considerThreshold) b i) := by
  obtain ⟨-, below⟩ := Params.mem_ids.mp known
  have word : i / 32 < p.numberInterruptEntries := by
    have room := p.room
    omega
  unfold visit arbitrate claimPriority
  rw [if_pos (Params.enabledIndex_lt here below)]
  by_cases enabled : s.enabled hart i = true
  case neg => simp [enabled]
  by_cases pending : s.pending i = true
  case neg => simp [enabled, pending, word]
  by_cases zero : s.priority i = 0#32
  case pos => simp [enabled, pending, word, Nat.lt_succ_of_lt below, zero]
  cases considerThreshold with
  | false => simp [enabled, pending, word, Nat.lt_succ_of_lt below, zero]
  | true =>
    by_cases above : s.threshold hart < s.priority i
    · simp [enabled, pending, word, Nat.lt_succ_of_lt below, zero, here, above]
    · simp [enabled, pending, word, Nat.lt_succ_of_lt below, here, above]

theorem hartGetNextPendingInterrupt_eq (here : hart < p.numberCores) (considerThreshold : Bool) :
    s.hartGetNextPendingInterrupt p hart considerThreshold = .ok (s.best p hart considerThreshold) := by
  have loop : p.ids.foldlM (s.visit p hart considerThreshold) (0, 0) =
      .ok (p.ids.foldl (arbitrate (s.claimPriority hart considerThreshold)) (0, 0)) :=
    foldlM_eq_ok (0, 0) fun b i known => visit_eq here known b
  unfold hartGetNextPendingInterrupt
  rw [show List.range' 1 (p.numberInterrupts - 1) = p.ids from rfl, loop]
  rfl

theorem best_pos_iff {considerThreshold : Bool} : 0 < s.best p hart considerThreshold ↔
    ∃ i ∈ p.ids, 0 < s.claimPriority hart considerThreshold i := by
  have found := arbiter_ne_zero_iff (s.claimPriority hart considerThreshold) p.sorted_ids
    fun i known => (Params.mem_ids.mp known).1
  exact Nat.pos_iff_ne_zero.trans found

theorem best_threshold_pos_iff : 0 < s.best p hart true ↔ Deliverable p s hart := by
  rw [best_pos_iff]
  refine exists_congr fun i => and_congr_right fun _ => ?_
  unfold claimPriority
  split
  case isTrue candidate =>
    obtain ⟨enabled, pending, above⟩ := candidate
    have positive : 0 < (s.priority i).toNat :=
      Nat.lt_of_le_of_lt (Nat.zero_le _) (BitVec.lt_def.mp (above rfl))
    exact ⟨fun _ => ⟨enabled, pending, above rfl⟩, fun _ => positive⟩
  case isFalse other =>
    refine ⟨fun absurd => by omega, fun candidate => ?_⟩
    exact absurd ⟨candidate.1, candidate.2.1, fun _ => candidate.2.2⟩ other

theorem hartHasPendingEnabledInterrupts_eq (here : hart < p.numberCores) :
    s.hartHasPendingEnabledInterrupts p hart = .ok (decide (Deliverable p s hart)) := by
  unfold hartHasPendingEnabledInterrupts
  rw [hartGetNextPendingInterrupt_eq here]
  exact congrArg Except.ok (decide_eq_decide.mpr best_threshold_pos_iff)

/-! ## Pending bits -/

theorem pending_setPending {i j : Nat} {status : Bool} (first : i < 2 ^ 61) (second : j < 2 ^ 61) :
    (s.setPending i status).pending j = if j = i then status else s.pending j :=
  ByteMemory.bit_setBit _ first second

theorem best_lt (p : Params) (s : Plic) (hart : Nat) (considerThreshold : Bool) :
    s.best p hart considerThreshold < p.numberInterrupts := by
  rcases arbiter_best (s.claimPriority hart considerThreshold) p.sorted_ids with ⟨zero, -⟩ | wins
  · have zero : s.best p hart considerThreshold = 0 := zero
    rw [zero]
    exact p.interrupt
  · exact (Params.mem_ids.mp wins.mem).2

theorem clearPendingInterrupt_eq {irqId : Nat} (known : irqId < p.numberInterrupts) :
    s.clearPendingInterrupt p irqId = .ok (s.setPending irqId false) := by
  have word : irqId / 32 < p.numberInterruptEntries := by
    have room := p.room
    omega
  unfold clearPendingInterrupt
  rw [if_pos known, if_pos word]

theorem gatewayTriggerInterrupt_eq_ok {irqId : Nat} (ran : s.gatewayTriggerInterrupt p irqId = .ok t) :
    0 < irqId ∧ irqId < p.numberInterrupts ∧ t = { s.setPending irqId true with eRun := true } := by
  unfold gatewayTriggerInterrupt at ran
  obtain ⟨known, ran⟩ := ok_of_guard ran
  obtain ⟨-, ran⟩ := ok_of_guard ran
  exact ⟨known.1, known.2, (Except.ok.inj ran).symm⟩

theorem gatewayTriggerInterrupt_ne_hartEip {irqId : Nat} :
    s.gatewayTriggerInterrupt p irqId ≠ .error .hartEip := by
  unfold gatewayTriggerInterrupt
  split
  · split <;> simp
  · simp

theorem claimResponse_setClaimResponse {h h' : Nat} {value : BitVec 32} (first : h < 2 ^ 60)
    (second : h' < 2 ^ 60) :
    (s.setClaimResponse h' value).claimResponse h = if h = h' then value else s.claimResponse h := by
  unfold claimResponse setClaimResponse
  simp only
  rw [ByteMemory.word_setWord _ (by omega) (by omega)]
  exact if_congr (by omega) rfl rfl

theorem threshold_setClaimResponse {h h' : Nat} {value : BitVec 32} (first : h < 2 ^ 60)
    (second : h' < 2 ^ 60) : (s.setClaimResponse h' value).threshold h = s.threshold h := by
  unfold threshold setClaimResponse
  simp only
  rw [ByteMemory.word_setWord _ (by omega) (by omega), if_neg (by omega)]

theorem deliverable_setClaimResponse (value : BitVec 32) :
    Deliverable p (s.setClaimResponse 0 value) 0 ↔ Deliverable p s 0 := by
  refine exists_congr fun i => and_congr_right fun _ => and_congr_right fun _ => and_congr_right fun _ => ?_
  rw [threshold_setClaimResponse (by decide) (by decide)]
  rfl

theorem enabled_init (p : Params) (hart i : Nat) : (init p).enabled hart i = false := by
  have zero : (init p).hartEnabledInterrupts.word (enabledIndex hart (i / 32)) = 0#32 :=
    ByteMemory.word_zero _
  unfold enabled
  rw [zero, BitVec.getLsbD_zero]

/-- A callback that changes something was called for a claim register. -/
theorem preReadHartConfig_ok {addr : BitVec 64} {n : Nat} (ran : preReadHartConfig p addr n s = .ok t) :
    t = s ∨ addr.toNat % 4 = 0 ∧ addr.toNat / 4 % 2 = 1 ∧ n = 4 := by
  unfold preReadHartConfig at ran
  obtain ⟨aligned, ran⟩ := ok_of_guard ran
  simp only at ran
  split at ran
  case isFalse => exact .inl (Except.ok.inj ran).symm
  case isTrue odd =>
    obtain ⟨size, -⟩ := ok_of_guard ran
    exact .inr ⟨aligned, odd, size⟩

/-- The loop of a claim looks for hart 0, so nothing but a check of the access can fail. -/
theorem preReadHartConfig_ne_hartEip {addr : BitVec 64} {n : Nat} :
    preReadHartConfig p addr n s ≠ .error .hartEip := by
  unfold preReadHartConfig
  rw [hartGetNextPendingInterrupt_eq p.core]
  simp only [clearPendingInterrupt_eq (best_lt p s 0 false)]
  split
  · split
    · split
      · split <;> simp
      · simp
    · simp
  · simp

theorem hartEip_of_postWriteHartConfig {addr : BitVec 64} {n : Nat}
    (ran : postWriteHartConfig p addr n s = .error .hartEip) :
    addr.toNat % 4 = 0 ∧ addr.toNat / 4 % 2 = 1 ∧ n = 4 := by
  unfold postWriteHartConfig at ran
  split at ran
  case isFalse => cases ran
  case isTrue aligned =>
    simp only at ran
    split at ran
    case isFalse => cases ran
    case isTrue odd =>
      split at ran
      case isFalse => cases ran
      case isTrue size => exact ⟨aligned, odd, size⟩

theorem postWriteHartConfig_ok {addr : BitVec 64} {n : Nat} (ran : postWriteHartConfig p addr n s = .ok t) :
    t = s ∨ addr.toNat % 4 = 0 ∧ addr.toNat / 4 % 2 = 1 ∧ n = 4 := by
  unfold postWriteHartConfig at ran
  obtain ⟨aligned, ran⟩ := ok_of_guard ran
  simp only at ran
  split at ran
  case isFalse => exact .inl (Except.ok.inj ran).symm
  case isTrue odd =>
    obtain ⟨size, -⟩ := ok_of_guard ran
    exact .inr ⟨aligned, odd, size⟩

end Plic

/-! ## The registers of the harts -/

/-- The claim register of a hart. -/
def claimAddr (hart : Nat) : BitVec 64 := BitVec.ofNat 64 (0x200004 + 8 * hart)

theorem toNat_claimAddr (here : hart < p.numberCores) : (claimAddr hart).toNat = 0x200004 + 8 * hart := by
  have cores := p.cores
  unfold claimAddr
  rw [BitVec.toNat_ofNat]
  omega

/-- The ranges with nothing behind claims and completions. -/
def plainRanges (p : Params) : List (RegisterRange Plic Fault) :=
  [regsInterruptPriorities p, regsPendingInterrupts p, regsHartEnabledInterrupts p, plainHartConfig p]

section Ranges

variable {addr : BitVec 64}

theorem contains_hartConfig : (plainHartConfig p).contains addr = true ↔
    0x200000 ≤ addr.toNat ∧ addr.toNat < 0x200000 + 8 * p.numberCores := by
  have core := p.core
  have cores := p.cores
  have start : (plainHartConfig p).start.toNat = 0x200000 := rfl
  have size : (plainHartConfig p).size = 8 * p.numberCores := rfl
  rw [RegisterRange.contains_iff _ (by omega) (by omega), start, size]

/-- The other ranges end below. -/
theorem not_contains_of_hartConfig (inside : (plainHartConfig p).contains addr = true) :
    (regsInterruptPriorities p).contains addr = false ∧
      (regsPendingInterrupts p).contains addr = false ∧
      (regsHartEnabledInterrupts p).contains addr = false := by
  have low := (contains_hartConfig.mp inside).1
  have core := p.core
  have entries := p.entries
  have interrupts := p.interrupts
  have apart := p.apart
  have words : p.numberInterruptEntries ≤ p.numberInterruptEntries * p.numberCores :=
    Nat.le_mul_of_pos_right _ core
  have first : (regsInterruptPriorities p).size = 4 * (p.numberInterrupts + 1) := rfl
  have second : (regsPendingInterrupts p).size = 4 * p.numberInterruptEntries := rfl
  have third : (regsHartEnabledInterrupts p).size = 4 * (p.numberInterruptEntries * p.numberCores) := rfl
  have start₁ : (regsInterruptPriorities p).start.toNat = 0 := rfl
  have start₂ : (regsPendingInterrupts p).start.toNat = 0x1000 := rfl
  have start₃ : (regsHartEnabledInterrupts p).start.toNat = 0x2000 := rfl
  refine ⟨?_, ?_, ?_⟩
  · rw [← Bool.not_eq_true, RegisterRange.contains_iff _ (by omega) (by omega)]
    omega
  · rw [← Bool.not_eq_true, RegisterRange.contains_iff _ (by omega) (by omega)]
    omega
  · rw [← Bool.not_eq_true, RegisterRange.contains_iff _ (by omega) (by omega)]
    omega

theorem find_hartConfig (inside : (plainHartConfig p).contains addr = true) :
    (registerRanges p).find? (·.contains addr) = some (regsHartConfig p) ∧
      (plainRanges p).find? (·.contains addr) = some (plainHartConfig p) := by
  obtain ⟨first, second, third⟩ := not_contains_of_hartConfig inside
  have same : (regsHartConfig p).contains addr = true := inside
  simp [registerRanges, plainRanges, first, second, third, same, inside]

theorem find_of_not_hartConfig (outside : (plainHartConfig p).contains addr = false) :
    (registerRanges p).find? (·.contains addr) = (plainRanges p).find? (·.contains addr) := by
  have same : (regsHartConfig p).contains addr = false := outside
  simp [registerRanges, plainRanges, List.find?_cons, same, outside]

end Ranges

section Accesses

variable {n : Nat} {addr : BitVec 64}

/-- A write moves its bytes, and may be a completion. -/
theorem transport_write (value : BitVec (8 * n)) : transport p (.write value) addr s =
    match route (plainRanges p) (.write value) addr s with
    | .error e => .error e
    | .ok (data, u) =>
        if (plainHartConfig p).contains addr = true then
          ((Plic.postWriteHartConfig p (addr - 0x200000) n u).mapError .device).map (data, ·)
        else .ok (data, u) := by
  unfold transport route
  cases inside : (plainHartConfig p).contains addr with
  | false =>
    rw [find_of_not_hartConfig inside]
    split
    · split <;> simp [*]
    · rfl
  | true =>
    obtain ⟨found, plain⟩ := find_hartConfig inside
    simp only [found, plain]
    rw [RegisterRange.process_write _ rfl rfl, RegisterRange.process_write _ rfl rfl]
    by_cases aligned : addr.toNat % (plainHartConfig p).alignment = 0 ∧ n % (plainHartConfig p).alignment = 0
    case neg =>
      rw [if_neg aligned]
      exact if_neg aligned
    case pos =>
      rw [if_pos aligned]
      refine (if_pos aligned).trans ?_
      by_cases fits : ((plainHartConfig p).toLocal addr).toNat + n ≤ (plainHartConfig p).size
      case neg =>
        rw [if_neg fits]
        exact if_neg fits
      case pos =>
        rw [if_pos fits]
        exact (if_pos fits).trans (if_pos trivial).symm

/-- What a plain write leaves alone. -/
theorem route_plain_frame {value data : BitVec (8 * n)}
    (ran : route (plainRanges p) (.write value) addr s = .ok (data, t)) :
    t.pendingInterrupts = s.pendingInterrupts ∧ t.hartEip = s.hartEip ∧ t.line = s.line ∧
      t.eRun = s.eRun := by
  obtain ⟨r, known, -, writable, -, go, u, before, after⟩ := route_write_ok ran
  simp only [plainRanges, List.mem_cons, List.not_mem_nil, or_false] at known
  rcases known with rfl | rfl | rfl | rfl
  · cases before
    rcases after with ⟨done, -⟩ | ⟨-, after⟩
    · cases done
    · cases after
      exact ⟨rfl, rfl, rfl, rfl⟩
  · cases writable
  · cases before
    rcases after with ⟨done, -⟩ | ⟨-, after⟩
    · cases done
    · cases after
      exact ⟨rfl, rfl, rfl, rfl⟩
  · cases before
    rcases after with ⟨done, -⟩ | ⟨-, after⟩
    · cases done
    · cases after
      exact ⟨rfl, rfl, rfl, rfl⟩

theorem contains_claimAddr (here : hart < p.numberCores) :
    (plainHartConfig p).contains (claimAddr hart) = true := by
  rw [contains_hartConfig, toNat_claimAddr here]
  omega

theorem toLocal_claimAddr (here : hart < p.numberCores) :
    (claimAddr hart - 0x200000).toNat = 8 * hart + 4 := by
  have start : (plainHartConfig p).start.toNat = 0x200000 := rfl
  have offset := (plainHartConfig p).toNat_toLocal (claimAddr hart)
    (by rw [toNat_claimAddr here, start]; omega)
  rw [toNat_claimAddr here, start] at offset
  have local_ : (claimAddr hart - 0x200000).toNat = 0x200004 + 8 * hart - 0x200000 := offset
  omega

theorem aligned_claimAddr (here : hart < p.numberCores) : (claimAddr hart).toNat % 4 = 0 ∧ 4 % 4 = 0 := by
  rw [toNat_claimAddr here]
  omega

/-- The claim register is a word of its hart. -/
theorem toLocal_claimAddr_eq (here : hart < p.numberCores) :
    claimAddr hart - 0x200000 = BitVec.ofNat 64 (4 * (2 * hart + 1)) := by
  apply BitVec.eq_of_toNat_eq
  have cores := p.cores
  rw [toLocal_claimAddr here, BitVec.toNat_ofNat]
  omega

theorem transport_read_claim (here : hart < p.numberCores) :
    transport p (n := 4) .read (claimAddr hart) s =
      ((Plic.preReadHartConfig p (claimAddr hart - 0x200000) 4 s).mapError .device).map
        fun t => (t.claimResponse hart, t) := by
  have fits : (claimAddr hart - 0x200000).toNat + 4 ≤ 8 * p.numberCores := by
    rw [toLocal_claimAddr here]
    omega
  unfold transport route
  rw [(find_hartConfig (contains_claimAddr here)).1]
  refine (RegisterRange.process_read _).trans ?_
  refine (if_pos (aligned_claimAddr here)).trans ((if_pos fits).trans ?_)
  unfold Plic.claimResponse ByteMemory.word
  rw [← toLocal_claimAddr_eq here]
  rfl

/-- The state behind a claim by `hart`. -/
def Plic.claimed (p : Params) (s : Plic) (hart : Nat) : Plic :=
  let id := s.best p 0 false
  (s.setClaimResponse (2 * hart) (BitVec.ofNat 32 id)).setPending id false

theorem Plic.pending_claimed {j : Nat} (small : j < 2 ^ 61) : (s.claimed p hart).pending j =
    if j = s.best p 0 false then false else s.pending j := by
  have best := Plic.best_lt p s 0 false
  have interrupts := p.interrupts
  exact Plic.pending_setPending (s := s.setClaimResponse _ _) (by omega) small

theorem Plic.threshold_claimed : (s.claimed p 0).threshold 0 = s.threshold 0 :=
  Plic.threshold_setClaimResponse (by decide) (by decide)

theorem claimResponse_claimed : (s.claimed p 0).claimResponse 0 = BitVec.ofNat 32 (s.best p 0 false) :=
  (Plic.claimResponse_setClaimResponse (by decide) (by decide)).trans (if_pos rfl)

/-- The loop looks for hart 0, and the answer goes to the place for twice the hart. -/
theorem step_claim (here : hart < p.numberCores) : step p s (.read 4 (claimAddr hart)) =
    if 2 * hart < p.numberCores then
      .ok (some ⟨4, (s.claimed p hart).claimResponse hart⟩, s.claimed p hart)
    else .error (.device .arrayView) := by
  have called : Plic.preReadHartConfig p (claimAddr hart - 0x200000) 4 s =
      if 2 * hart < p.numberCores then .ok (s.claimed p hart) else .error .arrayView := by
    have index : (8 * hart + 4) / 4 - 1 = 2 * hart := by omega
    unfold Plic.preReadHartConfig
    rw [toLocal_claimAddr here, if_pos (by omega), if_pos (by omega), if_pos rfl,
      Plic.hartGetNextPendingInterrupt_eq p.core, index]
    simp only [Plic.clearPendingInterrupt_eq (Plic.best_lt p s 0 false)]
    rfl
  unfold step
  simp only [transport_read_claim here, called]
  split <;> rfl

theorem route_plain_claim (here : hart < p.numberCores) (value : BitVec 32) :
    route (plainRanges p) (.write (n := 4) value) (claimAddr hart) s =
      .ok (value, s.setClaimResponse hart value) := by
  have fits : (claimAddr hart - 0x200000).toNat + 4 ≤ 8 * p.numberCores := by
    rw [toLocal_claimAddr here]
    omega
  unfold route
  rw [(find_hartConfig (contains_claimAddr here)).2]
  refine (RegisterRange.process_write (n := 4) _ rfl rfl value).trans ?_
  refine (if_pos (aligned_claimAddr here)).trans ((if_pos fits).trans ?_)
  unfold Plic.setClaimResponse ByteMemory.setWord
  rw [← toLocal_claimAddr_eq here]
  rfl

/-- The line that a completion drives is the one for twice the hart. -/
theorem step_completion (here : hart < p.numberCores) (twice : 2 * hart < p.numberCores) (value : BitVec 32) :
    step p s (.write 4 (claimAddr hart) value) =
      if Plic.Deliverable p (s.setClaimResponse hart value) (2 * hart) then
        if s.hartEip (2 * hart) then .ok (none, (s.setClaimResponse hart value).setLine (2 * hart) true)
        else .error (.device .hartEip)
      else .ok (none, ((s.setClaimResponse hart value).setEip (2 * hart) false).setLine (2 * hart) false) := by
  have plain := route_plain_claim (s := s) here value
  have called (u : Plic) : Plic.postWriteHartConfig p (claimAddr hart - 0x200000) 4 u =
      if Plic.Deliverable p u (2 * hart) then
        if u.hartEip (2 * hart) then .ok (u.setLine (2 * hart) true) else .error .hartEip
      else .ok ((u.setEip (2 * hart) false).setLine (2 * hart) false) := by
    have index : (8 * hart + 4) / 4 - 1 = 2 * hart := by omega
    unfold Plic.postWriteHartConfig
    rw [toLocal_claimAddr here, if_pos (by omega), if_pos (by omega), if_pos rfl, index]
    simp only [Plic.hartHasPendingEnabledInterrupts_eq twice, if_pos twice, decide_eq_true_eq]
  unfold step
  simp only [transport_write, plain, contains_claimAddr here, if_true, called]
  split
  · split
    case isTrue set => simp [show s.hartEip (2 * hart) = true from set, Except.mapError, Except.map]
    case isFalse clear => simp [show ¬ s.hartEip (2 * hart) = true from clear, Except.mapError, Except.map]
  · rfl

end Accesses

/-! ## One core -/

/-- The state behind an activation of `run` with one core. -/
def Plic.activated (p : Params) (s : Plic) : Plic :=
  if s.eRun then
    if s.hartEip 0 = false ∧ Deliverable p s 0 then
      ({ s with eRun := false }.setEip 0 true).setLine 0 true
    else { s with eRun := false }
  else s

theorem Plic.pending_activated {j : Nat} : (s.activated p).pending j = s.pending j := by
  unfold Plic.activated
  split
  · split
    · rfl
    · rfl
  · rfl

/-- What a step did, with one core. -/
inductive Did (p : Params) (s : Plic) : Input → Answer → Plic → Prop where
  | trigger {irqId : Nat} (above : 0 < irqId) (known : irqId < p.numberInterrupts) :
      Did p s (.trigger irqId) none { s.setPending irqId true with eRun := true }
  | read {n : Nat} {addr : BitVec 64} {data : BitVec (8 * n)} (other : ¬ (n = 4 ∧ addr = claimAddr 0)) :
      Did p s (.read n addr) (some ⟨n, data⟩) s
  | claim : Did p s (.read 4 (claimAddr 0)) (some ⟨4, BitVec.ofNat 32 (s.best p 0 false)⟩) (s.claimed p 0)
  | write {n : Nat} {addr : BitVec 64} {value data : BitVec (8 * n)} {t : Plic}
      (other : ¬ (n = 4 ∧ addr = claimAddr 0))
      (ran : route (plainRanges p) (.write value) addr s = .ok (data, t)) :
      Did p s (.write n addr value) none t
  | complete {value : BitVec 32} (nothing : ¬ Plic.Deliverable p (s.setClaimResponse 0 value) 0) :
      Did p s (.write 4 (claimAddr 0) value) none (((s.setClaimResponse 0 value).setEip 0 false).setLine 0 false)
  | again {value : BitVec 32} (something : Plic.Deliverable p (s.setClaimResponse 0 value) 0)
      (eip : s.hartEip 0 = true) :
      Did p s (.write 4 (claimAddr 0) value) none ((s.setClaimResponse 0 value).setLine 0 true)
  | run : Did p s .run none (s.activated p)

section Single

variable (single : p.numberCores = 1)
include single

/-- With one core the odd words of the hart registers are the claim register. -/
theorem claim_of_odd {n : Nat} {addr : BitVec 64} (inside : (plainHartConfig p).contains addr = true)
    (fits : ((plainHartConfig p).toLocal addr).toNat + n ≤ (plainHartConfig p).size)
    (aligned : ((plainHartConfig p).toLocal addr).toNat % 4 = 0)
    (odd : ((plainHartConfig p).toLocal addr).toNat / 4 % 2 = 1) (size : n = 4) : addr = claimAddr 0 := by
  have low := (contains_hartConfig.mp inside).1
  have start : (plainHartConfig p).start.toNat = 0x200000 := rfl
  have whole : (plainHartConfig p).size = 8 * p.numberCores := rfl
  have offset := (plainHartConfig p).toNat_toLocal addr (by rw [start]; exact low)
  rw [start] at offset
  have here : (0 : Nat) < p.numberCores := p.core
  apply BitVec.eq_of_toNat_eq
  rw [toNat_claimAddr here]
  omega

theorem read_cases {n : Nat} {addr : BitVec 64} {data : BitVec (8 * n)}
    (ran : transport p .read addr s = .ok (data, t)) : t = s ∨ n = 4 ∧ addr = claimAddr 0 := by
  obtain ⟨r, known, inside, fits, called, -⟩ := route_read_ok ran
  simp only [registerRanges, List.mem_cons, List.not_mem_nil, or_false] at known
  rcases known with rfl | rfl | rfl | rfl
  · exact .inl (Except.ok.inj called).symm
  · exact .inl (Except.ok.inj called).symm
  · exact .inl (Except.ok.inj called).symm
  · have called : Plic.preReadHartConfig p ((plainHartConfig p).toLocal addr) n s = .ok t := called
    rcases Plic.preReadHartConfig_ok called with same | ⟨aligned, odd, size⟩
    · exact .inl same
    · exact .inr ⟨size, claim_of_odd single inside fits aligned odd size⟩

theorem write_cases {n : Nat} {addr : BitVec 64} {value data : BitVec (8 * n)}
    (ran : transport p (.write value) addr s = .ok (data, t)) :
    route (plainRanges p) (.write value) addr s = .ok (data, t) ∨ n = 4 ∧ addr = claimAddr 0 := by
  rw [transport_write] at ran
  split at ran
  case h_1 => cases ran
  case h_2 moved =>
    split at ran
    case isFalse => exact .inl (by rw [moved, ran])
    case isTrue inside =>
      obtain ⟨r, known, contained, -, fits, -⟩ := route_write_ok moved
      obtain ⟨first, second, third⟩ := not_contains_of_hartConfig inside
      simp only [plainRanges, List.mem_cons, List.not_mem_nil, or_false] at known
      rcases known with rfl | rfl | rfl | rfl
      · simp [first] at contained
      · simp [second] at contained
      · simp [third] at contained
      · obtain ⟨v, after, same⟩ := ok_of_map ran
        obtain ⟨rfl, rfl⟩ := Prod.mk.inj same
        rcases Plic.postWriteHartConfig_ok (ok_of_mapError after) with same | ⟨aligned, odd, size⟩
        · exact .inl (same ▸ moved)
        · exact .inr ⟨size, claim_of_odd single inside fits aligned odd size⟩

theorem run_single : s.run p = .ok (s.activated p) := by
  unfold Plic.run Plic.activated
  rw [single]
  by_cases outstanding : s.eRun = true
  case neg => simp [outstanding]
  case pos =>
    have core := p.core
    simp only [outstanding, ↓reduceIte, List.range_one, List.foldlM_cons, List.foldlM_nil]
    unfold Plic.signal
    cases eip : s.hartEip 0 with
    | true => simp
    | false =>
      have looked := Plic.hartHasPendingEnabledInterrupts_eq (s := { s with eRun := false }) core
      have same : Plic.Deliverable p { s with eRun := false } 0 ↔ Plic.Deliverable p s 0 := Iff.rfl
      rw [looked]
      by_cases something : Plic.Deliverable p s 0
      · simp [same.mpr something, something]
      · simp [mt same.mp something, something]

theorem step_did {a : Input} {b : Answer} (ran : step p s a = .ok (b, t)) : Did p s a b t := by
  have here : 0 < p.numberCores := p.core
  cases a with
  | trigger irqId =>
    obtain ⟨u, called, same⟩ := ok_of_map ran
    obtain ⟨rfl, rfl⟩ := Prod.mk.inj same
    obtain ⟨above, known, rfl⟩ := Plic.gatewayTriggerInterrupt_eq_ok (ok_of_mapError called)
    exact .trigger above known
  | read n addr =>
    by_cases claims : n = 4 ∧ addr = claimAddr 0
    case pos =>
      obtain ⟨rfl, rfl⟩ := claims
      rw [step_claim here, if_pos (by omega)] at ran
      obtain ⟨rfl, rfl⟩ := Prod.mk.inj (Except.ok.inj ran)
      rw [claimResponse_claimed]
      exact .claim
    case neg =>
      obtain ⟨⟨data, u⟩, called, same⟩ := ok_of_map ran
      obtain ⟨rfl, rfl⟩ := Prod.mk.inj same
      rcases read_cases single called with rfl | claim
      · exact .read claims
      · exact absurd claim claims
  | write n addr value =>
    by_cases completes : n = 4 ∧ addr = claimAddr 0
    case pos =>
      obtain ⟨rfl, rfl⟩ := completes
      rw [step_completion here (by omega)] at ran
      split at ran
      case isTrue something =>
        split at ran
        case isFalse => cases ran
        case isTrue eip =>
          obtain ⟨rfl, rfl⟩ := Prod.mk.inj (Except.ok.inj ran)
          exact .again something eip
      case isFalse nothing =>
        obtain ⟨rfl, rfl⟩ := Prod.mk.inj (Except.ok.inj ran)
        exact .complete nothing
    case neg =>
      obtain ⟨⟨data, u⟩, called, same⟩ := ok_of_map ran
      obtain ⟨rfl, rfl⟩ := Prod.mk.inj same
      rcases write_cases single called with plain | completion
      · exact .write completes plain
      · exact absurd completion completes
  | run =>
    unfold step at ran
    rw [run_single single] at ran
    obtain ⟨rfl, rfl⟩ := Prod.mk.inj (Except.ok.inj ran)
    exact .run

end Single

end RiscvVp.Fe310
