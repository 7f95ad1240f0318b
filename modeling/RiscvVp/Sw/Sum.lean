/-
# RiscvVp.Sw.Sum -- the sum of `sw/basic-asm`

The loop of `sum.S` adds the numbers from `a0` up to `a1` to `a2`.  It is proved of the machine of
the ISA, for all values of the three registers with which the counter does not pass the largest
number, wherever the program lies; the simulator runs it like the machine.
-/
import Mathlib.Algebra.BigOperators.Intervals
import Mathlib.Order.Interval.Finset.SuccPred
import Mathlib.Algebra.Order.Interval.Set.SuccPred
import Mathlib.Data.Int.ConditionallyCompleteOrder
import Mathlib.Data.Int.Interval
import Mathlib.Data.Int.SuccPred
import RiscvVp.Soc.Simulation

namespace RiscvVp.Sw.Sum

set_option autoImplicit false

open Lib Spec.Machine
open Spec (Space Machine rs1 rs2 immB immJ writeRd_some writeRd_none writeRd_zero)

/-- From `_start` to `end`, for `-march=rv32i`: `li a0,50`, `li a1,100`, `li a2,0`; the loop
`bgt a0,a1,end`, `add a2,a2,a0`, `addi a0,a0,1`, `j loop`. -/
def program : List Instruction :=
  [0x03200513, 0x06400593, 0x00000613, 0x00A5C863, 0x00A60633, 0x00150513, 0xFF5FF06F]

variable {space : Space} {memory : ByteMemory} {start : Word .rv32}
  (placed : Placed space memory start program) {regs : BitVec 5 → Word .rv32}

/-! ## The instructions -/

section Instructions

variable (zero : regs 0 = 0)

include placed zero

/-- `bgt a0,a1,end` -/
theorem step_bgt : (at_ memory start 3 regs).step space =
    some (at_ memory start (if (regs 11#5).toInt < (regs 10#5).toInt then 7 else 4) regs) := by
  have decodes : Spec.decode .rv32 0x00A5C863 = some (.blt, 0x00A5C863) := by decide
  have exit_ : Spec.add (start + .ofNat 32 12) ((immB 0x00A5C863).signExtend 32) =
      start + .ofNat 32 28 := by
    rw [Spec.add_eq, BitVec.add_assoc]
    rfl
  rw [placed.step rfl (by decide) decodes rfl, writeRd_none zero]
  by_cases beyond : (regs 11#5).toInt < (regs 10#5).toInt
  · have taken : decide ((regs (rs1 0x00A5C863)).toInt < (regs (rs2 0x00A5C863)).toInt) = true :=
      decide_eq_true beyond
    rw [taken, if_pos beyond]
    exact congrArg (fun pc => some (Machine.mk pc regs memory)) exit_
  · have passed : decide ((regs (rs1 0x00A5C863)).toInt < (regs (rs2 0x00A5C863)).toInt) = false :=
      decide_eq_false beyond
    rw [passed, if_neg beyond]
    rfl

/-- `add a2,a2,a0` -/
theorem step_add : (at_ memory start 4 regs).step space =
    some (at_ memory start 5 (Function.update regs 12#5 (regs 12#5 + regs 10#5))) := by
  have decodes : Spec.decode .rv32 0x00A60633 = some (.add, 0x00A60633) := by decide
  rw [placed.step rfl (by decide) decodes rfl, writeRd_some zero _ _ (by decide), Spec.add_eq]
  rfl

/-- `addi a0,a0,1` -/
theorem step_addi : (at_ memory start 5 regs).step space =
    some (at_ memory start 6 (Function.update regs 10#5 (regs 10#5 + 1))) := by
  have decodes : Spec.decode .rv32 0x00150513 = some (.addi, 0x00150513) := by decide
  rw [placed.step rfl (by decide) decodes rfl, writeRd_some zero _ _ (by decide), Spec.add_eq]
  rfl

/-- `j loop` -/
theorem step_j : (at_ memory start 6 regs).step space = some (at_ memory start 3 regs) := by
  have decodes : Spec.decode .rv32 0xFF5FF06F = some (.jal, 0xFF5FF06F) := by decide
  have back : Spec.add (start + .ofNat 32 24) ((immJ 0xFF5FF06F).signExtend 32) =
      start + .ofNat 32 12 := by
    rw [Spec.add_eq, BitVec.add_assoc]
    rfl
  rw [placed.step rfl (by decide) decodes rfl, writeRd_zero zero _ (by decide)]
  exact congrArg (fun pc => some (Machine.mk pc regs memory)) back

end Instructions

/-! ## The loop -/

/-- The registers when the counter has come to `x`: the sum has what lies before `x`. -/
noncomputable def counted (regs : BitVec 5 → Word .rv32) (x : Int) : BitVec 5 → Word .rv32 :=
  Function.update (Function.update regs 12#5
    (.ofInt 32 ((regs 12#5).toInt + ∑ k ∈ Finset.Ico (regs 10#5).toInt x, k))) 10#5 (.ofInt 32 x)

section Counted

variable (regs) (x : Int)

theorem counted_start : counted regs (regs 10#5).toInt = regs := by
  unfold counted
  simp

@[simp] theorem counted_counter : counted regs x 10#5 = .ofInt 32 x := by simp [counted]

@[simp] theorem counted_sum : counted regs x 12#5 =
    .ofInt 32 ((regs 12#5).toInt + ∑ k ∈ Finset.Ico (regs 10#5).toInt x, k) := by simp [counted]

theorem counted_other {r : BitVec 5} (counter : r ≠ 10#5) (sum : r ≠ 12#5) :
    counted regs x r = regs r := by
  simp [counted, counter, sum]

variable {regs} {x}

/-- A round of the loop. -/
theorem counted_succ (after : (regs 10#5).toInt ≤ x) :
    Function.update (Function.update (counted regs x) 12#5 (counted regs x 12#5 + counted regs x 10#5))
      10#5 (counted regs x 10#5 + 1) = counted regs (x + 1) := by
  have sum : ∑ k ∈ Finset.Ico (regs 10#5).toInt (x + 1), k =
      ∑ k ∈ Finset.Ico (regs 10#5).toInt x, k + x := by
    rw [← Finset.insert_Ico_right_eq_Ico_add_one after, Finset.sum_insert Finset.right_notMem_Ico,
      Int.add_comm]
  funext r
  rw [Function.update_apply, Function.update_apply]
  by_cases counter : r = 10#5
  · rw [if_pos counter, counter, counted_counter, counted_counter, BitVec.ofInt_add]
    rfl
  · rw [if_neg counter]
    by_cases summed : r = 12#5
    · rw [if_pos summed, summed, counted_sum, counted_sum, counted_counter, sum, ← Int.add_assoc,
        BitVec.ofInt_add _ x]
    · rw [if_neg summed, counted_other _ _ counter summed, counted_other _ _ counter summed]

end Counted

/-- The loop, from its first instruction to `end`. -/
theorem loop (placed : Placed space memory start program) (zero : regs 0 = 0)
    (bounded : (regs 11#5).toInt < 2 ^ 31 - 1) : Triple (Machine.step space)
      (· = at_ memory start 3 regs)
      (· = at_ memory start 7 (counted regs (max (regs 10#5).toInt ((regs 11#5).toInt + 1)))) := by
  let invariant (m : Machine .rv32) := ∃ x, m = at_ memory start 3 (counted regs x) ∧
    (regs 10#5).toInt ≤ x ∧ x ≤ max (regs 10#5).toInt ((regs 11#5).toInt + 1)
  have enter : ∀ m, m = at_ memory start 3 regs → invariant m := by
    rintro m rfl
    exact ⟨(regs 10#5).toInt, by rw [counted_start], Int.le_refl _, Int.le_max_left _ _⟩
  refine (Triple.loop (fun m => ((regs 11#5).toInt + 1 - (m.regs 10#5).toInt).toNat) ?_).weaken enter
    fun _ => id
  rintro n m ⟨⟨x, rfl, low, high⟩, size⟩
  have lowest : -2 ^ 31 ≤ (regs 10#5).toInt := BitVec.le_toInt _
  have highest : (regs 10#5).toInt < 2 ^ 31 := BitVec.toInt_lt
  have counter : (BitVec.ofInt 32 x).toInt = x :=
    BitVec.toInt_ofInt_eq_self (by decide) (by omega) (by omega)
  have zero' : counted regs x 0 = 0 := (counted_other regs x (by decide) (by decide)).trans zero
  have limit : counted regs x 11#5 = regs 11#5 := counted_other regs x (by decide) (by decide)
  have test := step_bgt placed zero'
  rw [limit, counted_counter, counter] at test
  by_cases beyond : (regs 11#5).toInt < x
  · rw [if_pos beyond] at test
    have last : x = max (regs 10#5).toInt ((regs 11#5).toInt + 1) := by omega
    exact ⟨1, _, steps_one test, .inl (by rw [← last])⟩
  · rw [if_neg beyond] at test
    -- the round: the test, the sum, the counter and the way back
    let summed := Function.update (counted regs x) 12#5 (counted regs x 12#5 + counted regs x 10#5)
    have added : (at_ memory start 4 (counted regs x)).step space = some (at_ memory start 5 summed) :=
      step_add placed zero'
    have zero'' : summed 0 = 0 := (Function.update_of_ne (by decide) _ _).trans zero'
    have raised := step_addi placed zero''
    rw [show summed 10#5 = counted regs x 10#5 by simp [summed], counted_succ low] at raised
    have back := step_j placed
      ((counted_other regs (x + 1) (by decide) (by decide)).trans zero : counted regs (x + 1) 0 = 0)
    have next : (BitVec.ofInt 32 (x + 1)).toInt = x + 1 :=
      BitVec.toInt_ofInt_eq_self (by decide) (by omega) (by omega)
    have ran := (steps_succ (n := 3) test).trans ((steps_succ (n := 2) added).trans
      ((steps_succ (n := 1) raised).trans (steps_one back)))
    refine ⟨4, _, ran, .inr ⟨⟨x + 1, rfl, by omega, by omega⟩, ?_⟩⟩
    have before : ((regs 11#5).toInt + 1 - (BitVec.ofInt 32 x).toInt).toNat = n := by
      rw [← counted_counter regs x]
      exact size
    have after : ((at_ memory start 3 (counted regs (x + 1))).regs 10#5).toInt = x + 1 :=
      (congrArg BitVec.toInt (counted_counter regs (x + 1))).trans next
    rw [after]
    omega

/-! ## On the simulator -/

section Simulated

open Soc

variable {Dev : Type} {soc : Soc Dev} {base : Platform (SocState Dev)} {windows memories : List MemoryDMI}
  {s : Iss .rv32 (SocState Dev)}

theorem sum_counted (regs : BitVec 5 → Word .rv32) :
    counted regs (max (regs 10#5).toInt ((regs 11#5).toInt + 1)) 12#5 =
      .ofInt 32 ((regs 12#5).toInt + ∑ k ∈ Finset.Icc (regs 10#5).toInt (regs 11#5).toInt, k) := by
  rw [counted_sum]
  by_cases some_ : (regs 10#5).toInt ≤ (regs 11#5).toInt + 1
  · rw [Int.max_eq_right some_, Finset.Ico_add_one_right_eq_Icc]
  · rw [Int.max_eq_left (by omega), Finset.Ico_self, Finset.Icc_eq_empty (by omega)]

/-- `run_step`, repeated from `loop` on, comes to `end` with the numbers from `a0` up to `a1` added to
`a2`, and with all other registers and all memory as before, for every `a0`, `a1` and `a2` but the
largest `a1`, of which the counter never gets past. -/
theorem loop_simulated (alone : Alone base) (calm : Calm soc base windows memories s)
    (placed : Placed (Soc.space base memories) (soc.bytes s.world) start program)
    (here : s.pc = start + 12) (bounded : (s.regs 11).toInt < 2 ^ 31 - 1) :
    ∃ n t, steps (Iss.runStep (soc.platform base windows)).next n s = some t ∧ t.pc = start + 28 ∧
      t.regs 12 = .ofInt 32 ((s.regs 12).toInt + ∑ k ∈ Finset.Icc (s.regs 10).toInt (s.regs 11).toInt, k) ∧
      (∀ r, r ≠ 10 → r ≠ 12 → t.regs r = s.regs r) ∧ soc.bytes t.world = soc.bytes s.world := by
  have shows : Shows soc s (at_ (soc.bytes s.world) start 3 s.regs) := ⟨here, rfl, rfl⟩
  have follow : Simulates (Follows soc base windows memories : Iss .rv32 _ → _) _ _ := simulates alone
  obtain ⟨n, t, ran, m, follows, rfl⟩ :=
    follow.triple (loop placed calm.zero bounded) ⟨_, ⟨calm, shows⟩, rfl⟩
  refine ⟨n, t, ran, follows.2.pc, ?_, fun r counter summed => ?_, follows.2.bytes⟩
  · rw [follows.2.regs]
    exact sum_counted s.regs
  · rw [follows.2.regs]
    exact counted_other _ _ counter summed

open Hifive in
/-- The program in the flash of `hifive`. -/
def text : ByteMemory := ByteMemory.write (fun _ => 0) 0 28
  (0xFF5FF06F#32 ++ 0x00150513#32 ++ 0x00A60633#32 ++ 0x00A5C863#32 ++ 0x00000613#32 ++ 0x06400593#32 ++
    0x03200513#32)

open Hifive in
theorem placed_text : Placed (Soc.space devices [dramDmi, flashDmi]) (Hifive.soc.bytes (flashed text))
    (0x20000000 : Word .rv32) program := by
  have each : ∀ k < 7, (Soc.space devices [dramDmi, flashDmi]).code (Spec.location
        (0x20000000 + .ofNat 32 (4 * k) : Word .rv32)) = true ∧
      (Hifive.soc.bytes (flashed text)).read (Spec.location (0x20000000 + .ofNat 32 (4 * k) : Word .rv32)) 4 =
        program.getD k 0 := by decide
  intro k word lies
  obtain ⟨inside, -⟩ := List.getElem?_eq_some_iff.mp lies
  have here := each k inside
  rwa [List.getD_eq_getElem?_getD, lies] at here

open Hifive in
/-- The core in front of the loop, with the limit 10. -/
def looping : Iss .rv32 (SocState Unit) :=
  { booted text with
    pc := 0x2000000C
    regs := fun r => if r = 11 then 10 else 0 }

open Hifive in
theorem calm_looping : Calm Hifive.soc devices [dramDmi, flashDmi] [dramDmi, flashDmi] looping := by
  refine (calm_booted text).of_kept ⟨fun _ _ => rfl, rfl, rfl, fun _ => id, rfl, id, id⟩ rfl ?_
  show (0x2000000C : Word .rv32) &&& 1 = 0
  decide

open Hifive in
theorem loop_simulated_looping : ∃ n t,
    steps (Iss.runStep (Hifive.soc.platform devices [dramDmi, flashDmi])).next n looping = some t ∧
      t.pc = 0x2000001C ∧ t.regs 12 = 55 := by
  obtain ⟨n, t, ran, pc, sum, -⟩ :=
    loop_simulated alone calm_looping placed_text (by decide) (by decide)
  exact ⟨n, t, ran, pc, sum.trans (by decide)⟩

end Simulated

end RiscvVp.Sw.Sum
