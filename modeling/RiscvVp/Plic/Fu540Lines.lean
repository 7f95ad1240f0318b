/-
# RiscvVp.Plic.Fu540Lines -- the interrupt lines of the FU540 controller

A context whose line is clear is signalled by `run` alone, and only a trigger notifies `run`.
So a completion and a register write may leave something deliverable behind that nobody is told
of, and `run` itself passes over the machine context of a hart whose supervisor context has
something.  `Mild` says which steps do none of this, by what is written and the state before;
these and no others keep every line up to date.
-/
import RiscvVp.Plic.Fu540Steps

namespace RiscvVp.Fu540

set_option autoImplicit false

open Lib

variable {harts : Nat} {s t : Plic} {c : Context}

/-! ## Stores -/

/-- The access is one of whole registers of the range; a context takes one word at a time. -/
def Register.Accepts (r : Register) (n : Nat) (addr : BitVec 64) : Prop :=
  (addr.toNat % 4 = 0 ∧ n % 4 = 0) ∧ (r.range.toLocal addr).toNat + n ≤ r.range.size ∧
    match r with
    | .context _ => n = 4
    | _ => True

instance {r : Register} {n : Nat} {addr : BitVec 64} : Decidable (r.Accepts n addr) := by
  unfold Register.Accepts
  cases r <;> infer_instance

def cutThreshold (value : BitVec 32) : BitVec 32 := if maxThr < value then maxThr else value

/-- The registers behind a store at an offset of the range. -/
def Register.stored (s : Plic) (offset : BitVec 64) {n : Nat} (value : BitVec (8 * n)) : Register → Plic
  | .priorities =>
      let written := s.interruptPriorities.write offset n value
      { s with interruptPriorities :=
          written.setWord (offset.toNat / 4) (clampPriority (written.word (offset.toNat / 4))) }
  | .pending => s
  | .enable c => s.setEnabledIrqs c ((s.enabledIrqs c).write offset n value)
  | .context c =>
      let s := s.setHartContext c ((s.hartContext c).write offset n value)
      if Plic.isClaimAccess offset then s else s.clampThreshold c

section Stores

variable {n : Nat} {addr : BitVec 64} {value : BitVec (8 * n)}

theorem toLocal_context_mod (aligned : addr.toNat % 4 = 0) :
    ((Register.context c).range.toLocal addr).toNat % 4 = 0 := by
  have start : (Register.context c).range.start = BitVec.ofNat 64 (0x200000 + 0x1000 * c.index) := rfl
  unfold RegisterRange.toLocal
  rw [start, BitVec.toNat_sub, BitVec.toNat_ofNat]
  omega

theorem start_context_le (c : Context) : (Register.context c).range.start.toNat + 8 ≤ 2 ^ 64 := by
  have start : (Register.context c).range.start = BitVec.ofNat 64 (0x200000 + 0x1000 * c.index) := rfl
  rw [start, BitVec.toNat_ofNat]
  omega

theorem toLocal_context_lt (inside : (Register.context c).range.contains addr = true) :
    ((Register.context c).range.toLocal addr).toNat < 8 := by
  have bounds := (RegisterRange.contains_iff _ (by decide : 0 < 8) (start_context_le c)).mp inside
  have place := RegisterRange.toNat_toLocal (Register.context c).range addr bounds.1
  rw [show (Register.context c).range.size = 8 from rfl] at bounds
  omega

theorem toLocal_priorities_lt (inside : Register.priorities.range.contains addr = true) :
    (Register.priorities.range.toLocal addr).toNat < 4 * numirq := by
  have bounds := contains_priorities.mp inside
  have place : (Register.priorities.range.toLocal addr).toNat = addr.toNat - 4 :=
    RegisterRange.toNat_toLocal _ addr bounds.1
  omega

theorem process_plain_refused (s : Plic) (value : BitVec (8 * n)) {r : Register} (refused : ¬ ((addr.toNat % 4 = 0 ∧ n % 4 = 0) ∧
      (r.range.toLocal addr).toNat + n ≤ r.range.size)) :
    ∃ e, r.plainRange.process (.write value) addr s = .error e := by
  by_cases aligned : addr.toNat % 4 = 0 ∧ n % 4 = 0
  case neg => exact ⟨.unaligned, by cases r <;> exact if_neg aligned⟩
  have beyond := mt (And.intro aligned) refused
  refine ⟨.beyond, ?_⟩
  cases r
  case pending =>
    exact (RegisterRange.process_write_away _ rfl rfl value).trans ((if_pos aligned).trans (if_neg beyond))
  all_goals
    exact (RegisterRange.process_write _ rfl rfl value).trans ((if_pos aligned).trans (if_neg beyond))

/-- The callback of a range decides about an access of whole registers. -/
theorem process_plain (s : Plic) (value : BitVec (8 * n)) (r : Register) (other : r ≠ .pending)
    (aligned : addr.toNat % 4 = 0 ∧ n % 4 = 0)
    (fits : (r.range.toLocal addr).toNat + n ≤ r.range.size) :
    r.plainRange.process (.write value) addr s =
      ((r.plainRange.postWrite (r.range.toLocal addr) n (r.range.setMem
        ((r.range.mem s).write (r.range.toLocal addr) n value) s)).mapError .device).map (value, ·) := by
  cases r
  case pending => exact absurd rfl other
  all_goals
    exact (RegisterRange.process_write _ rfl rfl value).trans ((if_pos aligned).trans (if_pos fits))

theorem writeIrqPrios_inside {offset : BitVec 64} (inside : offset.toNat < 4 * numirq) :
    Plic.writeIrqPrios offset n s =
      .ok { s with interruptPriorities :=
              s.interruptPriorities.setWord (offset.toNat / 4) (clampPriority (s.priority (offset.toNat / 4))) } := by
  unfold Plic.writeIrqPrios
  exact if_pos (by omega)

theorem process_plain_iff {r : Register} (inside : r.range.contains addr = true)
    {data : BitVec (8 * n)} : r.plainRange.process (.write value) addr s = .ok (data, t) ↔
      r.Accepts n addr ∧ data = value ∧ t = r.stored s (r.range.toLocal addr) value := by
  unfold Register.Accepts
  by_cases whole : (addr.toNat % 4 = 0 ∧ n % 4 = 0) ∧ (r.range.toLocal addr).toNat + n ≤ r.range.size
  case neg =>
    obtain ⟨e, refused⟩ := process_plain_refused s value whole
    rw [refused]
    exact iff_of_false nofun fun all => whole ⟨all.1.1, all.1.2.1⟩
  obtain ⟨aligned, fits⟩ := whole
  have result {u : Plic} (callback : r.plainRange.process (.write value) addr s = .ok (value, u)) :
      r.plainRange.process (.write value) addr s = .ok (data, t) ↔ data = value ∧ t = u := by
    rw [callback, Except.ok.injEq, Prod.mk.injEq]
    exact and_congr eq_comm eq_comm
  cases r with
  | pending =>
    refine (result ((RegisterRange.process_write_away _ rfl rfl value).trans
      ((if_pos aligned).trans (if_pos fits)))).trans ?_
    exact ⟨fun same => ⟨⟨aligned, fits, trivial⟩, same⟩, And.right⟩
  | priorities =>
    refine (result ((process_plain s value .priorities nofun aligned fits).trans ?_)).trans
      ⟨fun same => ⟨⟨aligned, fits, trivial⟩, same⟩, And.right⟩
    rw [show Register.priorities.plainRange.postWrite = Plic.writeIrqPrios from rfl,
      writeIrqPrios_inside (toLocal_priorities_lt inside)]
    rfl
  | enable c =>
    exact (result (process_plain s value (.enable c) nofun aligned fits)).trans
      ⟨fun same => ⟨⟨aligned, fits, trivial⟩, same⟩, And.right⟩
  | context c =>
    have offset := toLocal_context_mod (c := c) aligned.1
    have callback := process_plain s value (.context c) nofun aligned fits
    rw [show (Register.context c).plainRange.postWrite = plainWriteHartctx c from rfl] at callback
    unfold plainWriteHartctx at callback
    rw [if_pos offset] at callback
    by_cases word : n = 4
    case neg =>
      rw [if_neg word] at callback
      rw [callback]
      exact iff_of_false nofun fun all => word all.1.2.2
    rw [if_pos word] at callback
    refine (result (callback.trans ?_)).trans ⟨fun same => ⟨⟨aligned, fits, word⟩, same⟩, And.right⟩
    simp only [Register.stored]
    split <;> rfl

/-- The range of an access, and what a store leaves behind. -/
theorem store_iff {data : BitVec (8 * n)} : store harts addr value s = .ok (data, t) ↔
    ∃ r, (registers harts).find? (·.range.contains addr) = some r ∧ r.Accepts n addr ∧
      data = value ∧ t = r.stored s (r.range.toLocal addr) value := by
  have plain : ((registers harts).find? fun r => r.plainRange.contains addr) =
      (registers harts).find? fun r => r.range.contains addr :=
    congrArg (fun p => List.find? p _) (funext fun r => contains_plainRange r addr)
  unfold store route
  rw [List.find?_map]
  simp only [Function.comp_def, plain]
  cases found : (registers harts).find? fun r => r.range.contains addr with
  | none => simp
  | some r =>
    have inside : r.range.contains addr = true := by simpa using List.find?_some found
    refine (process_plain_iff inside).trans ?_
    simp

/-! ## What a write makes deliverable -/

/-- A pending interrupt is deliverable to the context with the bytes that are written: with its
priority, its enable bit or the threshold. -/
def Raises (harts : Nat) (s : Plic) (c : Context) (n : Nat) (addr : BitVec 64) (value : BitVec (8 * n)) :
    Prop :=
  match (registers harts).find? (·.range.contains addr) with
  | none | some .pending => False
  | some .priorities =>
      Register.priorities.Accepts n addr ∧
        let offset := Register.priorities.range.toLocal addr
        let written := s.interruptPriorities.write offset n value
        ∃ irq ∈ ids, s.isEnabled c irq = true ∧ s.isPending irq = true ∧
          s.getThreshold c <
            if irq = offset.toNat / 4 then clampPriority (written.word irq) else written.word irq
  | some (.enable d) =>
      (Register.enable d).Accepts n addr ∧ c = d ∧
        let written := (s.enabledIrqs d).write ((Register.enable d).range.toLocal addr) n value
        ∃ irq ∈ ids, written.bit irq = true ∧ s.isPending irq = true ∧ s.getThreshold c < s.priority irq
  | some (.context d) =>
      (Register.context d).Accepts n addr ∧ c = d ∧
        let written := (s.hartContext d).write ((Register.context d).range.toLocal addr) n value
        ∃ irq ∈ ids, s.isEnabled c irq = true ∧ s.isPending irq = true ∧
          cutThreshold (written.word 0) < s.priority irq

instance : Decidable (Raises harts s c n addr value) := by
  unfold Raises
  split <;> infer_instance

theorem deliverable_stored_priorities {offset : BitVec 64} (inside : offset.toNat < 4 * numirq) :
    (Register.priorities.stored s offset value).Deliverable c ↔
      let written := s.interruptPriorities.write offset n value
      ∃ irq ∈ ids, s.isEnabled c irq = true ∧ s.isPending irq = true ∧
        s.getThreshold c <
          if irq = offset.toNat / 4 then clampPriority (written.word irq) else written.word irq := by
  refine exists_congr fun irq => and_congr_right fun known =>
    and_congr_right fun _ => and_congr_right fun _ => ?_
  have below := List.mem_range'_1.mp known
  have count : numirq = 53 := rfl
  have element : (Register.priorities.stored s offset value).priority irq =
      if irq = offset.toNat / 4 then
        clampPriority ((s.interruptPriorities.write offset n value).word (offset.toNat / 4))
      else (s.interruptPriorities.write offset n value).word irq :=
    ByteMemory.word_setWord _ (by omega) (by omega) _
  rw [element]
  split
  case isTrue same => rw [← same]; rfl
  case isFalse => rfl

theorem deliverable_stored_enable {d : Context} {offset : BitVec 64} :
    ((Register.enable d).stored s offset value).Deliverable c ↔
      if c = d then
        ∃ irq ∈ ids, ((s.enabledIrqs d).write offset n value).bit irq = true ∧ s.isPending irq = true ∧
          s.getThreshold c < s.priority irq
      else s.Deliverable c := by
  have bits (irq : Nat) : ((Register.enable d).stored s offset value).isEnabled c irq =
      (if c = d then (s.enabledIrqs d).write offset n value else s.enabledIrqs c).bit irq := rfl
  unfold Plic.Deliverable
  simp only [bits]
  split <;> rfl

theorem threshold_stored_context {d : Context} {offset : BitVec 64} :
    ((Register.context d).stored s offset value).getThreshold c =
      if c = d then
        if Plic.isClaimAccess offset then ((s.hartContext d).write offset n value).word 0
        else cutThreshold (((s.hartContext d).write offset n value).word 0)
      else s.getThreshold c := by
  simp only [Register.stored]
  by_cases here : c = d
  · subst here
    rw [if_pos rfl]
    by_cases claim : Plic.isClaimAccess offset = true
    · rw [if_pos claim, if_pos claim]
      unfold Plic.getThreshold Plic.setHartContext
      simp
    · rw [if_neg claim, if_neg claim]
      unfold Plic.clampThreshold Plic.getThreshold Plic.setHartContext
      simp only [if_true]
      exact (ByteMemory.word_setWord _ (by decide) (by decide) _).trans (if_pos rfl)
  · rw [if_neg here]
    unfold Plic.clampThreshold Plic.getThreshold Plic.setHartContext
    split <;> simp [here]

theorem deliverable_stored_context {d : Context} {offset : BitVec 64} :
    ((Register.context d).stored s offset value).Deliverable c ↔
      ∃ irq ∈ ids, s.isEnabled c irq = true ∧ s.isPending irq = true ∧
        (if c = d then
          if Plic.isClaimAccess offset then ((s.hartContext d).write offset n value).word 0
          else cutThreshold (((s.hartContext d).write offset n value).word 0)
        else s.getThreshold c) < s.priority irq := by
  have rest : ((Register.context d).stored s offset value).isEnabled c = s.isEnabled c ∧
      ((Register.context d).stored s offset value).isPending = s.isPending ∧
      ((Register.context d).stored s offset value).priority = s.priority := by
    simp only [Register.stored]
    split <;> exact ⟨rfl, rfl, rfl⟩
  unfold Plic.Deliverable
  rw [threshold_stored_context, rest.1, rest.2.1, rest.2.2]

theorem contains_of_found {r : Register} (found : (registers harts).find? (·.range.contains addr) = some r) :
    r.range.contains addr = true := by
  simpa using List.find?_some found

theorem completion_eq_some : completion harts addr = some c ↔
    (registers harts).find? (·.range.contains addr) = some (.context c) ∧
      Plic.isClaimAccess ((Register.context c).range.toLocal addr) = true := by
  unfold completion
  split
  case h_1 d found =>
    rw [found]
    by_cases claim : Plic.isClaimAccess ((Register.context d).range.toLocal addr) = true
    · rw [if_pos claim]
      constructor
      · rintro ⟨⟩
        exact ⟨rfl, claim⟩
      · rintro ⟨⟨⟩, -⟩
        rfl
    · rw [if_neg claim]
      refine iff_of_false nofun ?_
      rintro ⟨⟨⟩, claims⟩
      exact claim claims
  case h_2 other => exact iff_of_false nofun fun both => other c both.1

theorem not_claim_of_plain (plain : completion harts addr = none)
    (found : (registers harts).find? (·.range.contains addr) = some (.context c)) :
    Plic.isClaimAccess ((Register.context c).range.toLocal addr) = false := by
  refine Bool.eq_false_of_not_eq_true fun claim => ?_
  cases plain.symm.trans (completion_eq_some.mpr ⟨found, claim⟩)

/-- Behind a store that is no completion. -/
theorem deliverable_of_store {data : BitVec (8 * n)} (plain : completion harts addr = none)
    (stored : store harts addr value s = .ok (data, t)) (something : t.Deliverable c) :
    Raises harts s c n addr value ∨ s.Deliverable c := by
  obtain ⟨r, found, accepts, -, rfl⟩ := store_iff.mp stored
  unfold Raises
  rw [found]
  cases r with
  | pending => exact .inr something
  | priorities =>
    have place := toLocal_priorities_lt (contains_of_found found)
    exact .inl ⟨accepts, (deliverable_stored_priorities place).mp something⟩
  | enable d =>
    rw [deliverable_stored_enable] at something
    split at something
    case isTrue here => exact .inl ⟨accepts, here, something⟩
    case isFalse => exact .inr something
  | context d =>
    rw [deliverable_stored_context, not_claim_of_plain plain found] at something
    by_cases here : c = d
    · simp only [here, if_true, Bool.false_eq_true, if_false, true_and] at something ⊢
      exact .inl ⟨accepts, something⟩
    · simp only [here, if_false] at something
      exact .inr something

theorem store_of_raises (plain : completion harts addr = none) (raises : Raises harts s c n addr value) :
    ∃ t, store harts addr value s = .ok (value, t) ∧ t.Deliverable c := by
  unfold Raises at raises
  split at raises
  case h_1 => cases raises
  case h_2 => cases raises
  case h_3 found =>
    obtain ⟨accepts, something⟩ := raises
    have place := toLocal_priorities_lt (contains_of_found found)
    exact ⟨_, store_iff.mpr ⟨_, found, accepts, rfl, rfl⟩, (deliverable_stored_priorities place).mpr something⟩
  case h_4 d found =>
    obtain ⟨accepts, rfl, something⟩ := raises
    refine ⟨_, store_iff.mpr ⟨_, found, accepts, rfl, rfl⟩, ?_⟩
    rw [deliverable_stored_enable, if_pos rfl]
    exact something
  case h_5 d found =>
    obtain ⟨accepts, rfl, something⟩ := raises
    refine ⟨_, store_iff.mpr ⟨_, found, accepts, rfl, rfl⟩, ?_⟩
    rw [deliverable_stored_context, if_pos rfl, not_claim_of_plain plain found]
    exact something

theorem accepts_context (inside : (Register.context c).range.contains addr = true) :
    (Register.context c).Accepts n addr ↔ n = 4 ∧ addr.toNat % 4 = 0 := by
  have below := toLocal_context_lt inside
  have size : (Register.context c).range.size = 8 := rfl
  unfold Register.Accepts
  rw [size]
  constructor
  · rintro ⟨aligned, -, word⟩
    exact ⟨word, aligned.1⟩
  · rintro ⟨rfl, aligned⟩
    have whole := toLocal_context_mod (c := c) aligned
    exact ⟨⟨aligned, rfl⟩, by omega, rfl⟩

/-- The claim register is not the threshold. -/
theorem deliverable_stored_claim {d : Context} {offset : BitVec 64} (aligned : offset.toNat % 4 = 0)
    (small : offset.toNat < 8) (claim : Plic.isClaimAccess offset = true) (value : BitVec (8 * 4)) :
    ((Register.context d).stored s offset value).Deliverable c ↔ s.Deliverable c := by
  have odd : offset.toNat / 4 % 2 = 1 := by simpa [Plic.isClaimAccess] using claim
  have kept : ((s.hartContext d).write offset 4 value).word 0 = s.getThreshold d :=
    (ByteMemory.word_write _ value ⟨aligned, rfl⟩ (by decide) (by omega)).trans (if_neg (by omega))
  rw [deliverable_stored_context, claim]
  by_cases here : c = d
  · subst here
    simp only [if_true, kept]
    rfl
  · simp only [here, if_false]
    rfl

/-- A completion takes one word, and changes nothing that decides what is deliverable. -/
theorem store_of_completion (s : Plic) (value : BitVec (8 * n)) (c : Context) {d : Context}
    (completes : completion harts addr = some d) :
    d ∈ contexts harts ∧
      ((∃ data t, store harts addr value s = .ok (data, t)) ↔ n = 4 ∧ addr.toNat % 4 = 0) ∧
      ∀ data t, store harts addr value s = .ok (data, t) → (t.Deliverable c ↔ s.Deliverable c) := by
  obtain ⟨found, claim⟩ := completion_eq_some.mp completes
  have inside := contains_of_found found
  have among : d ∈ contexts harts := by
    have known := List.mem_of_find?_eq_some found
    simpa [registers] using known
  have taken {data : BitVec (8 * n)} {t : Plic} (stored : store harts addr value s = .ok (data, t)) :
      (Register.context d).Accepts n addr ∧
        t = (Register.context d).stored s ((Register.context d).range.toLocal addr) value := by
    obtain ⟨r, found', accepted, -, same⟩ := store_iff.mp stored
    cases found.symm.trans found'
    exact ⟨accepted, same⟩
  refine ⟨among, ?_, fun data t stored => ?_⟩
  · rw [← accepts_context inside]
    constructor
    · rintro ⟨data, t, stored⟩
      exact (taken stored).1
    · intro accepted
      exact ⟨_, _, store_iff.mpr ⟨_, found, accepted, rfl, rfl⟩⟩
  · obtain ⟨accepted, rfl⟩ := taken stored
    obtain ⟨rfl, aligned⟩ := (accepts_context inside).mp accepted
    exact deliverable_stored_claim (toLocal_context_mod aligned) (toLocal_context_lt inside) claim value

end Stores

/-! ## Runs -/

/-- The machine context of a hart waits behind its supervisor context. -/
def Plic.Passed (s : Plic) (hart : Nat) : Prop :=
  hart ≠ 0 ∧ s.Selected ⟨hart, .supervisor⟩ ∧ s.Deliverable ⟨hart, .machine⟩ ∧
    s.line ⟨hart, .machine⟩ = false

instance {hart : Nat} : Decidable (s.Passed hart) := inferInstanceAs (Decidable (_ ∧ _))

/-- A write makes nothing deliverable that its context and `run` do not know of; nothing is
deliverable at a completion unless `run` is to come; `run` passes over no machine context; and
no search comes to the last interrupt. -/
def Mild (harts : Nat) (s : Plic) : Input → Prop
  | .write n addr value =>
      (∀ c ∈ completion harts addr, n = 4 → addr.toNat % 4 = 0 → s.Deliverable c → s.eRun = true) ∧
        (completion harts addr = none →
          ∀ c ∈ contexts harts, Raises harts s c n addr value → s.line c = true ∨ s.eRun = true)
  | .read n addr => n = 4 → addr.toNat % 4 = 0 → ∀ c ∈ completion harts addr, ¬ s.LastCandidate c
  | .run => s.eRun = true → ∀ hart < harts, ¬ s.Passed hart ∧ ¬ s.Stuck hart
  | .trigger _ => True

instance {a : Input} : Decidable (Mild harts s a) :=
  match a with
  | .write _ addr _ => inferInstanceAs (Decidable ((∀ c ∈ completion harts addr, _) ∧ (_ → _)))
  | .read _ addr => inferInstanceAs (Decidable (_ → _ → ∀ c ∈ completion harts addr, _))
  | .run => inferInstanceAs (Decidable (_ → ∀ hart < harts, _))
  | .trigger _ => .isTrue trivial

/-- Unless `run` is to come, every context was told of what it can get. -/
def Signalled (harts : Nat) (s : Plic) : Prop :=
  s.eRun = false → ∀ c ∈ contexts harts, s.Deliverable c → s.line c = true

/-- Every context knows of what it can get, or `run` is to come. -/
def Served (harts : Nat) (s : Plic) : Prop :=
  ∀ c ∈ contexts harts, s.Deliverable c → s.line c = true ∨ s.eRun = true

theorem served_iff_signalled : Served harts s ↔ Signalled harts s := by
  unfold Served Signalled
  cases s.eRun <;> simp

theorem mem_contexts : c ∈ contexts harts ↔ c.hart < harts ∧ c.Exists := by
  obtain ⟨hart, level⟩ := c
  unfold contexts
  rw [List.mem_flatMap]
  constructor
  · rintro ⟨i, here, among⟩
    rw [List.mem_range] at here
    split at among
    case isTrue first =>
      cases List.mem_singleton.mp among
      exact ⟨here, by simp [Context.Exists]⟩
    case isFalse other =>
      simp only [List.mem_cons, List.not_mem_nil, or_false] at among
      rcases among with same | same
      · cases same
        exact ⟨here, by simp [Context.Exists]⟩
      · cases same
        exact ⟨here, fun both => other both.1⟩
  · rintro ⟨here, exists_⟩
    refine ⟨hart, List.mem_range.mpr here, ?_⟩
    cases level with
    | machine => split <;> simp
    | supervisor =>
      rw [if_neg fun first => exists_ ⟨first, rfl⟩]
      simp

theorem served_init : Served harts init := by
  rintro c - ⟨irq, -, enabled, -⟩
  have zero : (init.enabledIrqs c).word (irq / 32) = 0#32 := ByteMemory.word_zero _
  unfold Plic.isEnabled ByteMemory.bit at enabled
  rw [zero, BitVec.getLsbD_zero] at enabled
  cases enabled

/-- A claim makes nothing deliverable. -/
theorem deliverable_of_claimed {d : Context} {irq : Nat} (small : irq ≤ numirq)
    (something : (s.claimed d irq).Deliverable c) : s.Deliverable c := by
  obtain ⟨i, known, enabled, pending, above⟩ := something
  have below := List.mem_range'_1.mp known
  have last : numirq = 53 := rfl
  have same : (s.claimed d irq).getThreshold c = s.getThreshold c := by
    have moved : (s.claimed d irq).hartContext c =
        if c = d then (s.hartContext d).setWord 1 (BitVec.ofNat 32 irq) else s.hartContext c := by
      unfold Plic.claimed
      simp only
      split <;> rfl
    unfold Plic.getThreshold
    rw [moved]
    split
    case isTrue here =>
      rw [ByteMemory.word_setWord _ (by decide) (by decide), if_neg (by decide), here]
    case isFalse => rfl
  have enabled : s.isEnabled c i = true := by
    unfold Plic.claimed at enabled
    simp only at enabled
    split at enabled <;> exact enabled
  have prio : (s.claimed d irq).priority i = s.priority i := by
    unfold Plic.claimed
    simp only
    split <;> rfl
  have pending : s.isPending i = true := by
    unfold Plic.claimed at pending
    simp only at pending
    split at pending
    case isFalse => exact pending
    case isTrue =>
      have taken : (if i = irq then false else s.isPending i) = true :=
        (ByteMemory.bit_setBit _ (by omega) (by omega)).symm.trans pending
      split at taken
      · cases taken
      · exact taken
  exact ⟨i, known, enabled, pending, by rw [← same, ← prio]; exact above⟩

/-- A write, and a completion behind it. -/
theorem step_write {n : Nat} {addr : BitVec 64} {value data : BitVec (8 * n)}
    (stored : store harts addr value s = .ok (data, t)) : step harts s (.write n addr value) =
      .ok (none, match completion harts addr with | some c => t.setLine c false | none => t) := by
  unfold step
  simp only [transport_write, stored]
  rfl

theorem write_ok {n : Nat} {addr : BitVec 64} {value : BitVec (8 * n)} {b : Answer}
    (ran : step harts s (.write n addr value) = .ok (b, t)) : ∃ data u,
      store harts addr value s = .ok (data, u) ∧
        t = match completion harts addr with | some c => u.setLine c false | none => u := by
  obtain ⟨⟨data, u⟩, called, same⟩ := ok_of_map ran
  obtain ⟨-, rfl⟩ := Prod.mk.inj same
  rw [transport_write] at called
  obtain ⟨⟨data', v⟩, stored, same⟩ := ok_of_map called
  obtain ⟨rfl, rfl⟩ := Prod.mk.inj same
  exact ⟨_, v, stored, rfl⟩

theorem run_step_ok {b : Answer} (ran : step harts s .run = .ok (b, t)) : s.run harts = .ok t := by
  obtain ⟨u, called, same⟩ := ok_of_map ran
  obtain ⟨-, rfl⟩ := Prod.mk.inj same
  exact ok_of_mapError called

/-- Behind an activation every context knows, unless its machine context was passed over. -/
theorem served_run (outstanding : s.eRun = true) (ran : s.run harts = .ok t) :
    Served harts t ↔ ∀ hart < harts, ¬ s.Passed hart := by
  obtain ⟨line, rfl, told⟩ := Plic.run_ok ran outstanding
  constructor
  · rintro served hart inside ⟨other, above, something, clear⟩
    have here : ⟨hart, .machine⟩ ∈ contexts harts := mem_contexts.mpr ⟨inside, fun both => other both.1⟩
    rcases served _ here something with set | absurd
    · rcases (told _).mp set with before | ⟨-, chosen⟩
      · exact Bool.false_ne_true (clear.symm.trans before)
      · exact chosen.1 ⟨other, above⟩
    · cases absurd
  · intro fine c here something
    obtain ⟨inside, exists_⟩ := mem_contexts.mp here
    have selected := Plic.selected_of_deliverable something
    obtain ⟨hart, level⟩ := c
    refine .inl ((told _).mpr ?_)
    cases level with
    | supervisor => exact .inr ⟨inside, fun first => exists_ ⟨first, rfl⟩, selected⟩
    | machine =>
      by_cases behind : hart ≠ 0 ∧ s.Selected ⟨hart, .supervisor⟩
      · refine .inl (Bool.of_not_eq_false fun clear => ?_)
        exact fine hart inside ⟨behind.1, behind.2, something, clear⟩
      · exact .inr ⟨inside, behind, selected⟩

/-- One step, where it is a mild one. -/
theorem served_step {a : Input} {b : Answer} (served : Served harts s) (mild : Mild harts s a)
    (ran : step harts s a = .ok (b, t)) : Served harts t := by
  cases a with
  | trigger irq =>
    obtain ⟨u, called, same⟩ := ok_of_map ran
    obtain ⟨-, rfl⟩ := Prod.mk.inj same
    have called : s.gatewayTriggerInterrupt irq = .ok u := ok_of_mapError called
    unfold Plic.gatewayTriggerInterrupt at called
    split at called
    · cases called
    · cases called
      exact fun _ _ _ => .inr rfl
  | read n addr =>
    obtain ⟨⟨data, u⟩, called, same⟩ := ok_of_map ran
    obtain ⟨-, rfl⟩ := Prod.mk.inj same
    rcases transport_read_ok called with rfl | ⟨d, irq, small, rfl⟩
    · exact served
    · intro c here something
      have before := served c here (deliverable_of_claimed small something)
      unfold Plic.claimed
      simp only
      split <;> exact before
  | write n addr value =>
    obtain ⟨data, u, stored, rfl⟩ := write_ok ran
    obtain ⟨-, line, outstanding⟩ := store_frame stored
    intro c here something
    cases completes : completion harts addr with
    | none =>
      simp only [completes] at something ⊢
      rw [line, outstanding]
      rcases deliverable_of_store completes stored something with raises | before
      · exact mild.2 completes c here raises
      · exact served c here before
    | some d =>
      simp only [completes] at something ⊢
      obtain ⟨-, taken, kept⟩ := store_of_completion s value c completes
      obtain ⟨size, aligned⟩ := taken.mp ⟨data, u, stored⟩
      have before : s.Deliverable c := (kept data u stored).mp something
      by_cases same : c = d
      · exact .inr (outstanding.trans (mild.1 d completes size aligned (same ▸ before)))
      · rcases served c here before with known | soon
        · exact .inl ((if_neg same).trans (by rw [line]; exact known))
        · exact .inr (outstanding.trans soon)
  | run =>
    have called := run_step_ok ran
    by_cases outstanding : s.eRun = true
    case neg =>
      unfold Plic.run at called
      rw [if_neg outstanding] at called
      cases called
      exact served
    case pos => exact (served_run outstanding called).mpr fun hart inside => (mild outstanding hart inside).1

theorem readHartctx_arrayView_iff {n : Nat} {offset : BitVec 64} (here : c.Exists) :
    Plic.readHartctx c offset n s = .error .arrayView ↔
      offset.toNat % 4 = 0 ∧ n = 4 ∧ Plic.isClaimAccess offset = true ∧ s.LastCandidate c := by
  unfold Plic.readHartctx
  by_cases aligned : offset.toNat % 4 = 0
  case neg => simp [aligned]
  by_cases size : n = 4
  case neg => simp [aligned, size]
  by_cases claim : Plic.isClaimAccess offset = true
  case neg => simp [aligned, size, claim]
  have ends := Plic.exists_nextPendingIrq_iff (s := s) here true
  simp only [aligned, size, claim, if_true, true_and]
  cases ran : s.nextPendingIrq c true with
  | ok irq =>
    rw [ran] at ends
    exact iff_of_false nofun (ends.mp ⟨irq, rfl⟩)
  | error e =>
    rw [ran] at ends
    have last : s.LastCandidate c := by
      by_contra fine
      obtain ⟨irq, absurd⟩ := ends.mpr fine
      cases absurd
    rw [Plic.nextPendingIrq_error here ran]
    exact iff_of_true rfl last

/-- Only a claim searches in a read. -/
theorem read_arrayView_iff {n : Nat} {addr : BitVec 64} :
    transport harts (n := n) .read addr s = .error (.device .arrayView) ↔
      n = 4 ∧ addr.toNat % 4 = 0 ∧ ∃ c ∈ completion harts addr, s.LastCandidate c := by
  unfold transport route completion
  rw [List.find?_map]
  simp only [Function.comp_def]
  cases found : (registers harts).find? fun r => r.range.contains addr with
  | none => simp
  | some r =>
    have plain (noCallback : r.range.preRead = fun _ _ s => .ok s) :
        r.range.process (n := n) .read addr s ≠ .error (.device .arrayView) := by
      rw [RegisterRange.process_read, noCallback]
      split
      · split <;> nofun
      · nofun
    cases r with
    | priorities => simpa using plain rfl
    | pending => simpa using plain rfl
    | enable d => simpa using plain rfl
    | context d =>
      have among : d ∈ contexts harts := by
        have known := List.mem_of_find?_eq_some found
        simpa [registers] using known
      have below := toLocal_context_lt (contains_of_found found)
      have size : (Register.context d).range.size = 8 := rfl
      refine (RegisterRange.process_read_device_iff _).trans ?_
      rw [size, show (Register.context d).range.preRead = Plic.readHartctx d from rfl,
        show (Register.context d).range.alignment = 4 from rfl,
        readHartctx_arrayView_iff (mem_contexts.mp among).2]
      cases claim : Plic.isClaimAccess ((Register.context d).range.toLocal addr) with
      | false => simp [claim]
      | true =>
        simp only [claim, if_true, Option.mem_def, Option.some.injEq, exists_eq_left', true_and]
        constructor
        · rintro ⟨aligned, -, -, rfl, last⟩
          exact ⟨rfl, aligned.1, last⟩
        · rintro ⟨rfl, aligned, last⟩
          have whole := toLocal_context_mod (c := d) aligned
          exact ⟨⟨aligned, rfl⟩, by omega, whole, rfl, last⟩

/-- A write searches nothing. -/
theorem write_ne_arrayView {n : Nat} {addr : BitVec 64} {value : BitVec (8 * n)} :
    transport harts (.write value) addr s ≠ .error (.device .arrayView) := by
  intro failed
  rw [transport_write] at failed
  obtain ⟨r, known, inside, -, early | ⟨u, before, late⟩⟩ := route_write_device (error_of_map failed)
  · obtain ⟨r, -, rfl⟩ := List.mem_map.mp known
    cases r <;> cases early
  · obtain ⟨r, -, rfl⟩ := List.mem_map.mp known
    rw [contains_plainRange] at inside
    cases r with
    | pending => cases before
    | enable c => cases late
    | priorities =>
      have late : Plic.writeIrqPrios (Register.priorities.range.toLocal addr) n _ = .error .arrayView := late
      rw [writeIrqPrios_inside (toLocal_priorities_lt inside)] at late
      cases late
    | context c =>
      have late : plainWriteHartctx c _ n _ = .error .arrayView := late
      unfold plainWriteHartctx at late
      split at late
      · split at late
        · split at late <;> cases late
        · cases late
      · cases late

theorem run_arrayView_iff : step harts s .run = .error (.device .arrayView) ↔
    s.eRun = true ∧ ∃ hart < harts, s.Stuck hart := by
  have ends : (∃ t, s.run harts = .ok t) ↔ _ := Plic.exists_run_iff
  unfold step
  cases ran : s.run harts with
  | ok t =>
    rw [ran] at ends
    refine iff_of_false nofun ?_
    rintro ⟨outstanding, hart, inside, stuck⟩
    exact ends.mp ⟨t, rfl⟩ outstanding hart inside stuck
  | error e =>
    rw [ran] at ends
    rw [Plic.run_error ran]
    refine iff_of_true rfl ?_
    by_contra fine
    obtain ⟨t, absurd⟩ := ends.mpr fun outstanding hart inside stuck => fine ⟨outstanding, hart, inside, stuck⟩
    cases absurd

/-- A search that comes to the last interrupt is one of a claim or of `run`. -/
theorem step_arrayView_iff {a : Input} : step harts s a = .error (.device .arrayView) ↔
    match a with
    | .read n addr => n = 4 ∧ addr.toNat % 4 = 0 ∧ ∃ c ∈ completion harts addr, s.LastCandidate c
    | .run => s.eRun = true ∧ ∃ hart < harts, s.Stuck hart
    | _ => False := by
  cases a with
  | trigger irq =>
    refine iff_of_false (fun failed => ?_) id
    obtain ⟨e, called, same⟩ := error_of_mapError (error_of_map failed)
    cases same
    unfold Plic.gatewayTriggerInterrupt at called
    split at called <;> cases called
  | read n addr =>
    refine Iff.trans ?_ read_arrayView_iff
    exact ⟨error_of_map, fun failed => congrArg (Except.map _) failed⟩
  | write n addr value => exact iff_of_false (fun failed => write_ne_arrayView (error_of_map failed)) id
  | run => exact run_arrayView_iff

/-- A step that is not mild comes to the last interrupt or leaves a context behind. -/
theorem mild_iff {a : Input} (served : Served harts s) :
    Mild harts s a ↔ step harts s a ≠ .error (.device .arrayView) ∧
      ∀ b t, step harts s a = .ok (b, t) → Served harts t := by
  constructor
  · intro mild
    refine ⟨fun failed => ?_, fun b t ran => served_step served mild ran⟩
    have stuck := step_arrayView_iff.mp failed
    cases a with
    | trigger irq => exact stuck
    | read n addr =>
      obtain ⟨size, aligned, c, claims, last⟩ := stuck
      exact mild size aligned c claims last
    | write n addr value => exact stuck
    | run =>
      obtain ⟨outstanding, hart, inside, stuck⟩ := stuck
      exact (mild outstanding hart inside).2 stuck
  · rintro ⟨searched, after⟩
    cases a with
    | trigger irq => trivial
    | read n addr =>
      intro size aligned c claims last
      exact searched (step_arrayView_iff.mpr ⟨size, aligned, c, claims, last⟩)
    | write n addr value =>
      constructor
      case right =>
        intro completes c here raises
        obtain ⟨t, stored, something⟩ := store_of_raises completes raises
        obtain ⟨-, line, outstanding⟩ := store_frame stored
        have ran := step_write stored
        simp only [completes] at ran
        rw [← line, ← outstanding]
        exact after _ _ ran c here something
      case left =>
        intro c completes size aligned something
        have completes := Option.mem_def.mp completes
        obtain ⟨here, taken, kept⟩ := store_of_completion s value c completes
        obtain ⟨data, t, stored⟩ := taken.mpr ⟨size, aligned⟩
        obtain ⟨-, -, outstanding⟩ := store_frame stored
        have ran := step_write stored
        simp only [completes] at ran
        have told := after _ _ ran c here ((kept data t stored).mpr something)
        rw [← outstanding]
        exact told.resolve_left fun set => by simp [Plic.setLine] at set
    | run =>
      intro outstanding hart inside
      have fine : ∀ hart < harts, ¬ s.Stuck hart := fun hart inside stuck =>
        searched (step_arrayView_iff.mpr ⟨outstanding, hart, inside, stuck⟩)
      obtain ⟨t, called⟩ := Plic.exists_run_iff.mpr fun _ => fine
      have ran : step harts s .run = .ok (none, t) := by
        unfold step
        rw [called]
        rfl
      exact ⟨(served_run outstanding called).mp (after _ _ ran) hart inside, fine hart inside⟩

/-- Where all steps are mild every line follows what is deliverable to its context; and the next
step fails no search and leaves no context behind exactly if it is a mild one too. -/
theorem lines_runs {log : List (Input × Answer)} (run : Runs (step harts) (Mild harts) init log s) :
    Signalled harts s ∧ ∀ a, Mild harts s a ↔ step harts s a ≠ .error (.device .arrayView) ∧
      ∀ b t, step harts s a = .ok (b, t) → Signalled harts t := by
  have served : Served harts s := run.invariant served_init fun served mild ran => served_step served mild ran
  simp only [← served_iff_signalled]
  exact ⟨served, fun a => mild_iff served⟩

/-- An interrupt of a supervisor context is claimed, completed and triggered again. -/
theorem lines_runs_dual : ∃ log s, Runs (step 2) (Mild 2) init log s ∧
    s.Deliverable ⟨1, .supervisor⟩ ∧ s.line ⟨1, .supervisor⟩ = true := by
  have signalled : ends (step 2) (Mild 2) init [.write 4 0x8 1#32, .write 4 0x2100 2#32, .trigger 1, .run,
      .read 4 0x202004, .write 4 0x202004 1#32, .trigger 1, .run]
      (fun s => s.eRun = false ∧ s.Deliverable ⟨1, .supervisor⟩) = true := by decide +kernel
  obtain ⟨log, s, run, quiescent, something⟩ := exists_runs_of_ends signalled
  exact ⟨log, s, run, something, (lines_runs run).1 quiescent _ (by decide) something⟩

/-- A quiescent state with something for a context that was not told. -/
def Plic.Lost (s : Plic) (c : Context) : Prop := s.eRun = false ∧ s.Deliverable c ∧ s.line c = false

instance : Decidable (s.Lost c) := inferInstanceAs (Decidable (_ ∧ _))

/-- Completing one interrupt while another is pending clears the line, and the machine context
of a hart is passed over. -/
theorem not_lines :
    (∃ log s, Runs (step 2) (fun _ _ => True) init log s ∧ s.Lost ⟨0, .machine⟩) ∧
      ∃ log s, Runs (step 2) (fun _ _ => True) init log s ∧ s.Lost ⟨1, .machine⟩ := by
  have completed : ends (step 2) (fun _ _ => True) init [.write 4 0x8 1#32, .write 4 0xc 1#32,
      .write 4 0x2000 6#32, .trigger 1, .run, .read 4 0x200004, .trigger 2, .run, .write 4 0x200004 1#32]
      (·.Lost ⟨0, .machine⟩) = true := by decide +kernel
  have passed : ends (step 2) (fun _ _ => True) init [.write 4 0x8 1#32, .write 4 0x2080 2#32,
      .write 4 0x2100 2#32, .trigger 1, .run] (·.Lost ⟨1, .machine⟩) = true := by decide +kernel
  exact ⟨exists_runs_of_ends completed, exists_runs_of_ends passed⟩

end RiscvVp.Fu540
