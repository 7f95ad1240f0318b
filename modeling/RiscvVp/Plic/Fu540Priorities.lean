/-
# RiscvVp.Plic.Fu540Priorities -- the priorities of the FU540 controller behind a run

The registers of the priorities start at offset 4, so that the word of interrupt `k`, which software
writes at offset `4 * k`, is the element `k - 1` of the array.  `next_pending_irq` looks at the
element `k` instead: an interrupt has the priority of the next one, and the last has none.
-/
import RiscvVp.Plic.Fu540Threshold

namespace RiscvVp.Fu540

set_option autoImplicit false

open Lib

variable {harts : Nat} {s t : Plic} {c : Context}

/-! ## What software has written -/

/-- What a write leaves at offset `4 * k`; there is nothing below offset 4. -/
def wordWritten (k : Nat) : Input → Option (BitVec 32)
  | .write n addr value =>
      if 4 ≤ addr.toNat ∧ addr.toNat ≤ 4 * k ∧ 4 * k < addr.toNat + n then
        some (value.extractLsb' (8 * (4 * k - addr.toNat)) 32)
      else none
  | _ => none

def startsAt (k : Nat) : Input → Bool
  | .write _ addr _ => addr.toNat = 4 * k
  | _ => false

/-- The word last written to offset `4 * k`. -/
def programmed (log : List (Input × Answer)) (k : Nat) : BitVec 32 :=
  log.foldl (fun last turn => (wordWritten k turn.1).getD last) 0

def storedNext (k : Nat) (last : BitVec 32) (a : Input) : BitVec 32 :=
  let word := (wordWritten k a).getD last
  if startsAt k a then clampPriority word else word

/-- The word last written to offset `4 * k`, cut to its range by the writes that start there. -/
def stored (log : List (Input × Answer)) (k : Nat) : BitVec 32 :=
  log.foldl (fun last turn => storedNext k last turn.1) 0

/-! ## What the registers hold -/

namespace Plic

/-- `interrupt_priorities[irq]`. -/
def interruptPriority (s : Plic) (irq : Nat) : Except Fault (BitVec 32) :=
  if irq < numirq then .ok (s.priority irq) else .error .arrayView

/-- A turn of the search for a candidate. -/
theorem visit_candidate {irq : Nat} (enabled : s.isEnabled c irq = true) (pending : s.isPending irq = true)
    (ignth : Bool) (best : Nat × Nat) : s.visit c ignth best irq = (s.interruptPriority irq).map fun prio =>
      if ignth = false ∧ prio < s.getThreshold c then best
      else if best.2 < prio.toNat then (irq, prio.toNat) else best := by
  unfold visit interruptPriority
  rw [enabled, pending, if_pos (by decide)]
  split
  · simp only [Except.map]
    split <;> rfl
  · rfl

end Plic

/-- The range of the priorities comes first. -/
theorem find_priorities {addr : BitVec 64} (inside : Register.priorities.range.contains addr = true) :
    ((registers harts).map Register.range).find? (·.contains addr) = some Register.priorities.range := by
  exact List.find?_cons_of_pos inside

/-- The callback of another range keeps the priorities. -/
theorem postWrite_other {r : Register} {addr : BitVec 64} {n : Nat} (other : r ≠ .priorities)
    (ran : r.range.postWrite addr n s = .ok t) : t.interruptPriorities = s.interruptPriorities := by
  cases r with
  | priorities => exact absurd rfl other
  | pending =>
    cases ran
    rfl
  | enable c =>
    cases ran
    rfl
  | context c =>
    have ran : Plic.writeHartctx c addr n s = .ok t := ran
    unfold Plic.writeHartctx at ran
    obtain ⟨-, ran⟩ := ok_of_guard ran
    obtain ⟨-, ran⟩ := ok_of_guard ran
    split at ran
    · cases ran
      rfl
    · cases ran
      rfl

section Write

variable {n : Nat} {addr : BitVec 64} {value : BitVec (8 * n)} {k : Nat}

theorem wordWritten_write : wordWritten k (.write n addr value) =
    if 4 ≤ addr.toNat ∧ addr.toNat ≤ 4 * k ∧ 4 * k < addr.toNat + n then
      some (value.extractLsb' (8 * (4 * k - addr.toNat)) 32)
    else none := rfl

/-- A write elsewhere. -/
theorem storedNext_of_outside (outside : ¬ Register.priorities.range.contains addr = true)
    (known : 0 < k ∧ k ≤ numirq) (last : BitVec 32) : storedNext k last (.write n addr value) = last := by
  have count : numirq = 53 := rfl
  rw [contains_priorities] at outside
  have none : wordWritten k (.write n addr value) = none := by
    rw [wordWritten_write, if_neg (by omega)]
  have apart : startsAt k (.write n addr value) = false := decide_eq_false (by omega)
  unfold storedNext
  rw [none, apart]
  rfl

/-- The copy of the bytes, before the callback. -/
theorem word_of_write (m : ByteMemory) (aligned : addr.toNat % 4 = 0 ∧ n % 4 = 0) (least : 4 ≤ addr.toNat)
    (most : addr.toNat + n ≤ 4 + 4 * numirq) (known : 0 < k ∧ k ≤ numirq) :
    (m.write (Register.priorities.range.toLocal addr) n value).word (k - 1) =
      (wordWritten k (.write n addr value)).getD (m.word (k - 1)) := by
  have count : numirq = 53 := rfl
  have place : (Register.priorities.range.toLocal addr).toNat = addr.toNat - 4 :=
    RegisterRange.toNat_toLocal _ addr least
  rw [ByteMemory.word_write m value (by omega) (by omega) (by omega), place, wordWritten_write]
  by_cases covered : addr.toNat ≤ 4 * k ∧ 4 * k < addr.toNat + n
  · have offset : 4 * (k - 1) - (addr.toNat - 4) = 4 * k - addr.toNat := by omega
    rw [if_pos (by omega), if_pos ⟨least, covered⟩, offset]
    rfl
  · rw [if_neg (by omega), if_neg fun all => covered all.2]
    rfl

/-- What a write makes of the word at offset `4 * k`. -/
theorem priority_of_write {data : BitVec (8 * n)} (ran : transport harts (.write value) addr s = .ok (data, t))
    (known : 0 < k ∧ k ≤ numirq) :
    t.priority (k - 1) = storedNext k (s.priority (k - 1)) (.write n addr value) := by
  have count : numirq = 53 := rfl
  obtain ⟨r, found, aligned, -, fits, go, u, before, after⟩ := route_write_found ran
  by_cases inside : Register.priorities.range.contains addr = true
  · have bounds := contains_priorities.mp inside
    obtain rfl := Option.some.inj ((find_priorities inside).symm.trans found)
    cases before
    rcases after with ⟨done, -⟩ | ⟨-, after⟩
    · cases done
    · have place : (Register.priorities.range.toLocal addr).toNat = addr.toNat - 4 :=
        RegisterRange.toNat_toLocal _ addr bounds.1
      have fits : (Register.priorities.range.toLocal addr).toNat + n ≤ 4 * numirq := fits
      have aligned : addr.toNat % 4 = 0 ∧ n % 4 = 0 := aligned
      have copied : Plic.priority (Register.priorities.range.setMem
            ((Register.priorities.range.mem s).write (Register.priorities.range.toLocal addr) n value) s) (k - 1) =
          (wordWritten k (.write n addr value)).getD (s.priority (k - 1)) :=
        word_of_write s.interruptPriorities aligned bounds.1 (by omega) known
      have callback := priority_of_writeIrqPrios (n := n) after (j := k - 1) (by omega)
      rw [copied] at callback
      rw [callback]
      refine if_congr ?_ rfl rfl
      rw [place]
      exact Iff.trans (by omega) decide_eq_true_iff.symm
  · rw [storedNext_of_outside inside known]
    have other : r ≠ Register.priorities.range := by
      rintro rfl
      exact inside (by simpa using List.find?_some found)
    obtain ⟨r, -, rfl⟩ := List.mem_map.mp (List.mem_of_find?_eq_some found)
    have other : r ≠ .priorities := fun same => other (congrArg Register.range same)
    rcases after with ⟨done, rfl⟩ | ⟨-, after⟩
    · have pending : r = .pending := by
        cases r with
        | pending => rfl
        | priorities => cases before; cases done
        | enable c => cases before; cases done
        | context c => cases before; cases done
      subst pending
      cases before
      rfl
    · have kept : t.interruptPriorities = (r.range.setMem _ u).interruptPriorities := postWrite_other other after
      unfold Plic.priority
      rw [kept]
      cases r with
      | priorities => exact absurd rfl other
      | pending => cases before; rfl
      | enable c => cases before; rfl
      | context c => cases before; rfl

end Write

/-- One step. -/
theorem priority_step {a : Input} {b : Answer} (ran : step harts s a = .ok (b, t)) {k : Nat}
    (known : 0 < k ∧ k ≤ numirq) : t.priority (k - 1) = storedNext k (s.priority (k - 1)) a := by
  cases a with
  | trigger irq =>
    obtain ⟨u, called, same⟩ := ok_of_map ran
    obtain ⟨-, rfl⟩ := Prod.mk.inj same
    have called : s.gatewayTriggerInterrupt irq = .ok u := ok_of_mapError called
    unfold Plic.gatewayTriggerInterrupt at called
    split at called
    · cases called
    · cases called
      rfl
  | read n addr =>
    obtain ⟨⟨data, u⟩, called, same⟩ := ok_of_map ran
    obtain ⟨-, rfl⟩ := Prod.mk.inj same
    rcases transport_read_ok called with rfl | ⟨d, irq, -, rfl⟩
    · rfl
    · unfold Plic.claimed
      simp only
      split <;> rfl
  | write n addr value =>
    obtain ⟨⟨data, u⟩, called, same⟩ := ok_of_map ran
    obtain ⟨-, rfl⟩ := Prod.mk.inj same
    exact priority_of_write called known
  | run =>
    obtain ⟨u, called, same⟩ := ok_of_map ran
    obtain ⟨-, rfl⟩ := Prod.mk.inj same
    have called : s.run harts = .ok u := ok_of_mapError called
    by_cases outstanding : s.eRun = true
    case neg =>
      unfold Plic.run at called
      rw [if_neg outstanding] at called
      cases called
      rfl
    case pos =>
      obtain ⟨line, rfl, -⟩ := Plic.run_ok called outstanding
      rfl

theorem priority_eq_stored {log : List (Input × Answer)} {allowed : Plic → Input → Prop}
    (run : Runs (step harts) allowed init log s) {k : Nat} (known : 0 < k ∧ k ≤ numirq) :
    s.priority (k - 1) = stored log k := by
  refine run.invariant_log (I := fun log s => s.priority (k - 1) = stored log k) ?_ fun {log t a b u} same _ ran => ?_
  · exact ByteMemory.word_zero _
  · unfold stored
    rw [List.foldl_append, priority_step ran known, same]
    rfl

/-- The search looks at `interrupt_priorities[k]`; this is what was programmed for `k` where the word
behind it holds the same value, and never for the last interrupt. -/
theorem programmed_iff {log : List (Input × Answer)} (run : Runs (step harts) (fun _ _ => True) init log s) :
    (∀ c irq ignth best, s.isEnabled c irq = true → s.isPending irq = true →
      s.visit c ignth best irq = (s.interruptPriority irq).map fun prio =>
        if ignth = false ∧ prio < s.getThreshold c then best
        else if best.2 < prio.toNat then (irq, prio.toNat) else best) ∧
    (∀ k, 0 < k → k ≤ numirq → (s.interruptPriority k = .ok (clampPriority (programmed log k)) ↔
      k ≠ numirq ∧ stored log (k + 1) = clampPriority (programmed log k))) ∧
    ∀ c : Context, c.Exists → ∀ ignth, ((∃ irq, s.nextPendingIrq c ignth = .ok irq) ↔
      ¬ (s.isEnabled c numirq = true ∧ s.isPending numirq = true)) := by
  refine ⟨fun c irq ignth best enabled pending => Plic.visit_candidate enabled pending ignth best,
    fun k first last => ?_, fun c here ignth => Plic.exists_nextPendingIrq_iff here ignth⟩
  unfold Plic.interruptPriority
  split
  case isTrue below =>
    have held := priority_eq_stored run (k := k + 1) ⟨Nat.succ_pos k, below⟩
    rw [Nat.add_sub_cancel] at held
    rw [held, Except.ok.injEq]
    exact ⟨fun same => ⟨Nat.ne_of_lt below, same⟩, And.right⟩
  case isFalse other =>
    refine iff_of_false nofun fun both => ?_
    have below := both.1
    omega

/-- With the same priority for interrupts 1 and 2. -/
theorem programmed_first : ∃ log s, Runs (step 1) (fun _ _ => True) init log s ∧ s.interruptPriority 1 = .ok 5#32 := by
  obtain ⟨t, first⟩ : ∃ t, step 1 init (.write 4 0x4 5#32) = .ok (none, t) := ⟨_, rfl⟩
  obtain ⟨u, second⟩ : ∃ u, step 1 t (.write 4 0x8 5#32) = .ok (none, u) := ⟨_, rfl⟩
  have run : Runs (step 1) (fun _ _ => True) init
      [(.write 4 0x4 5#32, none), (.write 4 0x8 5#32, none)] u := (Runs.start.next trivial first).next trivial second
  exact ⟨_, u, run, ((programmed_iff run).2.1 1 (by decide) (by decide)).mpr ⟨by decide, by decide⟩⟩

/-- What is programmed for interrupt 1 alone is not its priority, and interrupt 53 ends the search with a
failed assertion. -/
theorem not_programmed :
    (¬ ∀ harts log s, Runs (step harts) (fun _ _ => True) init log s → ∀ k, 0 < k → k ≤ numirq →
      s.interruptPriority k = .ok (clampPriority (programmed log k))) ∧
    ∃ log s, Runs (step 1) (fun _ _ => True) init log s ∧
      s.nextPendingIrq ⟨0, .machine⟩ false = .error .arrayView := by
  constructor
  · intro all
    obtain ⟨t, first⟩ : ∃ t, step 1 init (.write 4 0x4 5#32) = .ok (none, t) := ⟨_, rfl⟩
    have run : Runs (step 1) (fun _ _ => True) init [(.write 4 0x4 5#32, none)] t := Runs.start.next trivial first
    have used := all 1 _ t run 1 (by decide) (by decide)
    have held := priority_eq_stored run (k := 2) (by decide)
    rw [Plic.interruptPriority, if_pos (by decide), held] at used
    exact absurd (Except.ok.inj used) (by decide)
  · have failed : ends (step 1) (fun _ _ => True) init [.write 8 0x2000 (1#64 <<< 53), .trigger 53]
        (fun s => s.nextPendingIrq ⟨0, .machine⟩ false = .error .arrayView) = true := by decide +kernel
    exact exists_runs_of_ends failed

end RiscvVp.Fu540
