/-
# RiscvVp.Sw.Multicore -- the barrier of `sw/basic-multicore`

Each hart adds one to `exit_counter` and waits until it was the last one.  In every schedule of the
two harts the one that came first waits for good, and the other one leaves the loop when both have
arrived.  The runs end there: a hart behind the loop takes no more turns, and the exit call that it
comes to is not looked at.  It is proved of the machines of the ISA on one memory, and the cores on
the bus do the same.
-/
import RiscvVp.Soc.Harts

namespace RiscvVp.Sw.Multicore

set_option autoImplicit false

open Lib Spec.Machine
open Spec (Space Machine Harts rs1 rs2 immB location writeRd_some writeRd_none)

/-- Behind `la t0, exit_counter`: `li t1,1`, `li t2,1`, `amoadd.w a0,t1,0(t0)`, `1: blt a0,t2,1b`. -/
def program : List Instruction := [0x00100313, 0x00100393, 0x0062A52F, 0x00754063]

/-! ## One hart -/

section Hart

/-- The program and its counter in the memory, apart from each other. -/
structure Lies (space : Space) (memory : ByteMemory) (start counter : Word .rv32) : Prop where
  placed : Placed space memory start program
  data : space.data (location counter) 4 = true
  aligned : (location counter).toNat % 4 = 0
  apart : ∀ k < program.length, ∀ l < 4,
    4 ≤ (location (start + .ofNat 32 (4 * k)) + .ofNat 64 l - location counter).toNat

/-- A hart that had `k` turns. -/
structure Came (start counter : Word .rv32) (k : Nat) (h : Machine .rv32) : Prop where
  zero : h.regs 0 = 0
  pointer : k < 3 → h.regs 5#5 = counter
  one : 1 ≤ k → k < 3 → h.regs 6#5 = 1
  limit : 2 ≤ k → h.regs 7#5 = 1
  straight : k ≤ 3 → h.pc = start + .ofNat 32 (4 * k)
  waits : 3 < k → h.pc = start + .ofNat 32 (if h.regs 10#5 = 0 then 12 else 16)

variable {space : Space} {memory : ByteMemory} {start counter : Word .rv32} {regs : BitVec 5 → Word .rv32}

/-- The counter may change. -/
theorem Lies.write (lies : Lies space memory start counter) (value : BitVec (8 * 4)) :
    Lies space (memory.write (location counter) 4 value) start counter where
  placed k word here := by
    obtain ⟨inside, -⟩ := List.getElem?_eq_some_iff.mp here
    obtain ⟨held, found⟩ := lies.placed here
    refine ⟨held, ?_⟩
    rw [ByteMemory.read_write_of_apart _ _ value (lies.apart k inside)]
    exact found
  data := lies.data
  aligned := lies.aligned
  apart := lies.apart

variable (lies : Lies space memory start counter) (zero : regs 0 = 0)

include lies zero

/-- `amoadd.w a0,t1,0(t0)` -/
theorem step_amoadd (pointer : regs 5#5 = counter) (one : regs 6#5 = 1) :
    (at_ memory start 2 regs).step space = some ⟨start + .ofNat 32 12,
      Function.update regs 10#5 (memory.read (location counter) 4),
      memory.write (location counter) 4 (memory.read (location counter) 4 + 1)⟩ := by
  have decodes : Spec.decode .rv32 0x0062A52F = some (.amoaddW, 0x0062A52F) := by decide
  let acc : Spec.Access .rv32 := ⟨location counter, 4, fun data => some (.ofInt _ data.toInt),
    fun data => some (Spec.add data (.ofNat _ (regs 6#5).toNat))⟩
  have defined : Spec.access .rv32 0x0062A52F (regs (rs1 0x0062A52F)) (regs (rs2 0x0062A52F)) .amoaddW =
      some acc := by
    rw [show rs1 0x0062A52F = 5#5 by decide, pointer]
    rfl
  have target : Spec.rd 0x0062A52F = 10#5 := by decide
  let data : BitVec (8 * 4) := memory.read (location counter) 4
  have old : (BitVec.ofInt 32 data.toInt : Word .rv32) = data := BitVec.ofInt_toInt
  have more : Spec.add data (.ofNat _ (regs 6#5).toNat) = data + 1 := by
    rw [Spec.add_eq, one]
    rfl
  have written : Spec.writeRd 0x0062A52F ⟨acc.result data, none⟩ regs = Function.update regs 10#5 data := by
    rw [show acc.result data = some data from congrArg some old, writeRd_some zero _ _ (by decide), target]
  rw [lies.placed.touch rfl (by decide) decodes (fun _ _ => rfl) defined ⟨lies.aligned, lies.data⟩]
  unfold Machine.touch
  refine congrArg some (congrArg₂ (Machine.mk _) written ?_)
  exact congrArg (memory.write (location counter) 4) more

/-- `blt a0,t2,1b` -/
theorem step_blt (limit : regs 7#5 = 1) (ticket : regs 10#5 = 0 ∨ regs 10#5 = 1) :
    (at_ memory start 3 regs).step space =
      some ⟨start + .ofNat 32 (if regs 10#5 = 0 then 12 else 16), regs, memory⟩ := by
  have decodes : Spec.decode .rv32 0x00754063 = some (.blt, 0x00754063) := by decide
  have here : Spec.add (start + .ofNat 32 12) ((immB 0x00754063).signExtend 32) = start + .ofNat 32 12 := by
    rw [Spec.add_eq, BitVec.add_assoc]
    rfl
  have second : rs2 0x00754063 = 7#5 := by decide
  have first : rs1 0x00754063 = 10#5 := by decide
  rw [lies.placed.step rfl (by decide) decodes rfl, writeRd_none zero, first, second, limit]
  rcases ticket with none | one
  · rw [none, if_pos rfl]
    exact congrArg (fun pc => some (Machine.mk pc regs memory)) here
  · rw [one, if_neg (by decide)]
    rfl

omit lies zero

theorem eq_at {h : Machine .rv32} {k : Nat} (here : h.pc = start + .ofNat 32 (4 * k)) :
    h = at_ h.memory start k h.regs := by
  obtain ⟨pc, regs, memory⟩ := h
  cases here
  rfl

/-- The turn in which the hart adds to the counter. -/
theorem came_adds {h : Machine .rv32} (lies : Lies space h.memory start counter)
    (came : Came start counter 2 h) : ∃ h', h.step space = some h' ∧ Came start counter 3 h' ∧
      h'.regs 10#5 = h.memory.read (location counter) 4 ∧
      h'.memory = h.memory.write (location counter) 4 (h.memory.read (location counter) 4 + 1) := by
  let old : Word .rv32 := h.memory.read (location counter) 4
  have other : ∀ {r : BitVec 5}, r ≠ 10#5 → Function.update h.regs 10#5 old r = h.regs r :=
    fun apart => Function.update_of_ne apart old h.regs
  have own : Function.update h.regs 10#5 old 10#5 = old := Function.update_self ..
  have moved := step_amoadd lies came.zero (came.pointer (by decide)) (came.one (by decide) (by decide))
  rw [← eq_at (came.straight (by decide))] at moved
  refine ⟨_, moved, ?_, own, rfl⟩
  exact
    { zero := (other (by decide)).trans came.zero
      pointer := fun early => absurd early (by decide)
      one := fun _ early => absurd early (by decide)
      limit := fun _ => (other (by decide)).trans (came.limit (by decide))
      straight := fun _ => rfl
      waits := fun late => absurd late (by decide) }

/-- A hart that waits looks at its ticket. -/
theorem came_waits {h : Machine .rv32} {k : Nat} (lies : Lies space h.memory start counter)
    (came : Came start counter k h) (late : 3 ≤ k) (going : h.pc ≠ start + 16)
    (ticket : h.regs 10#5 = 0 ∨ h.regs 10#5 = 1) : ∃ h', h.step space = some h' ∧
      Came start counter (k + 1) h' ∧ h'.regs = h.regs ∧ h'.memory = h.memory := by
  have here : h.pc = start + .ofNat 32 (4 * 3) := by
    by_cases first : k ≤ 3
    · obtain rfl : k = 3 := by omega
      exact came.straight (by decide)
    · have waits := came.waits (by omega)
      split at waits
      · exact waits
      · exact absurd waits going
  have moved := step_blt lies came.zero (came.limit (by omega)) ticket
  rw [← eq_at here] at moved
  refine ⟨_, moved, ?_, rfl, rfl⟩
  exact
    { zero := came.zero
      pointer := fun early => by omega
      one := fun _ early => by omega
      limit := fun _ => came.limit (by omega)
      straight := fun early => by omega
      waits := fun _ => rfl }

/-- The turns before: `li`. -/
theorem came_loads {h : Machine .rv32} {k : Nat} (lies : Lies space h.memory start counter)
    (came : Came start counter k h) (early : k < 2) : ∃ h', h.step space = some h' ∧
      Came start counter (k + 1) h' ∧ h'.memory = h.memory := by
  have start_ := eq_at (came.straight (by omega))
  match k with
  | 0 =>
    have other : ∀ {r : BitVec 5}, r ≠ 6#5 → Function.update h.regs 6#5 1 r = h.regs r :=
      fun apart => Function.update_of_ne apart 1 h.regs
    have own : Function.update h.regs 6#5 1 6#5 = 1 := Function.update_self ..
    have moved := lies.placed.li (k := 0) came.zero rfl (by decide) (by decide) (by decide) (by decide)
    rw [← start_] at moved
    refine ⟨_, moved, ?_, rfl⟩
    exact
      { zero := (other (by decide)).trans came.zero
        pointer := fun _ => (other (by decide)).trans (came.pointer (by decide))
        one := fun _ _ => own
        limit := fun late => absurd late (by decide)
        straight := fun _ => rfl
        waits := fun late => absurd late (by decide) }
  | 1 =>
    have other : ∀ {r : BitVec 5}, r ≠ 7#5 → Function.update h.regs 7#5 1 r = h.regs r :=
      fun apart => Function.update_of_ne apart 1 h.regs
    have own : Function.update h.regs 7#5 1 7#5 = 1 := Function.update_self ..
    have moved := lies.placed.li (k := 1) came.zero rfl (by decide) (by decide) (by decide) (by decide)
    rw [← start_] at moved
    refine ⟨_, moved, ?_, rfl⟩
    exact
      { zero := (other (by decide)).trans came.zero
        pointer := fun _ => (other (by decide)).trans (came.pointer (by decide))
        one := fun _ _ => (other (by decide)).trans (came.one (by decide) (by decide))
        limit := fun _ => own
        straight := fun _ => rfl
        waits := fun late => absurd late (by decide) }

end Hart

/-! ## Both harts -/

/-- How many of the harts have added to the counter, after so many turns of each. -/
def arrived (k : Fin 2 → Nat) : Nat := (List.finRange 2).countP fun i => 3 ≤ k i

/-- Behind the loop. -/
def Out (start : Word .rv32) (i : Fin 2) (m : Harts .rv32 (Fin 2)) : Prop := m.pc i = start + 16

instance (start : Word .rv32) (i : Fin 2) (m : Harts .rv32 (Fin 2)) : Decidable (Out start i m) :=
  inferInstanceAs (Decidable (_ = _))

/-- The harts after so many turns of each: the tickets are the numbers of the harts before. -/
structure Barrier (space : Fin 2 → Space) (start counter : Word .rv32) (k : Fin 2 → Nat)
    (m : Harts .rv32 (Fin 2)) : Prop where
  lies : ∀ i, Lies (space i) m.memory start counter
  came : ∀ i, Came start counter (k i) (m.hart i)
  count : m.memory.read (location counter) 4 = BitVec.ofNat 32 (arrived k)
  ticket : ∀ i, 3 ≤ k i → m.regs i 10#5 = 0 ∨ m.regs i 10#5 = 1 ∧ ∀ j, 3 ≤ k j
  apart : ∀ i j, i ≠ j → 3 ≤ k i → 3 ≤ k j → m.regs i 10#5 ≠ m.regs j 10#5

variable {space : Fin 2 → Space} {start counter : Word .rv32} {k : Fin 2 → Nat} {m : Harts .rv32 (Fin 2)}
  {i : Fin 2}

/-- The turns, one more of them for a hart. -/
def more (k : Fin 2 → Nat) (i : Fin 2) : Fin 2 → Nat := Function.update k i (k i + 1)

@[simp] theorem more_self (k : Fin 2 → Nat) (i : Fin 2) : more k i i = k i + 1 := Function.update_self ..

theorem more_of_ne {j : Fin 2} (other : j ≠ i) : more k i j = k j := Function.update_of_ne other ..

theorem late_iff (quiet : k i ≠ 2) (j : Fin 2) : 3 ≤ more k i j ↔ 3 ≤ k j := by
  by_cases same : j = i
  · subst same
    rw [more_self]
    omega
  · rw [more_of_ne same]

theorem arrived_quiet (quiet : k i ≠ 2) : arrived (more k i) = arrived k := by
  unfold arrived
  simp only [late_iff quiet]

/-- The other hart. -/
theorem exists_other (i : Fin 2) : ∃ j, j ≠ i ∧ ∀ l, l = i ∨ l = j := by
  revert i
  decide

theorem arrived_of {j : Fin 2} (other : j ≠ i) (k : Fin 2 → Nat) :
    arrived k = (if 3 ≤ k i then 1 else 0) + if 3 ≤ k j then 1 else 0 := by
  have sum : arrived k = (if 3 ≤ k 0 then 1 else 0) + if 3 ≤ k 1 then 1 else 0 := by
    simp [arrived, List.finRange_succ, List.countP_cons, Nat.add_comm]
  rw [sum]
  match i, j with
  | 0, 1 => rfl
  | 1, 0 => exact Nat.add_comm _ _
  | 0, 0 => exact absurd rfl other
  | 1, 1 => exact absurd rfl other

theorem Came.withMemory {n : Nat} {h : Machine .rv32} (came : Came start counter n h)
    (memory : ByteMemory) : Came start counter n { h with memory := memory } :=
  ⟨came.zero, came.pointer, came.one, came.limit, came.straight, came.waits⟩

theorem came_put (came : ∀ i, Came start counter (k i) (m.hart i)) {h : Machine .rv32}
    (next : Came start counter (k i + 1) h) (j : Fin 2) :
    Came start counter (more k i j) ((m.put i h).hart j) := by
  by_cases same : j = i
  · rw [same, Harts.hart_put_self, more_self]
    exact next
  · rw [Harts.hart_put_of_ne m same, more_of_ne same]
    exact (came j).withMemory h.memory

/-- A turn that leaves the counter alone, and the ticket. -/
theorem Barrier.quiet (barrier : Barrier space start counter k m) (quiet : k i ≠ 2) {h : Machine .rv32}
    (next : Came start counter (k i + 1) h) (memory : h.memory = m.memory)
    (ticket : 3 ≤ k i → h.regs 10#5 = m.regs i 10#5) : Barrier space start counter (more k i) (m.put i h) := by
  have tickets : ∀ j, 3 ≤ k j → (m.put i h).regs j 10#5 = m.regs j 10#5 := by
    intro j late
    by_cases same : j = i
    · subst same
      exact (congrFun (Function.update_self j h.regs m.regs) _).trans (ticket late)
    · exact congrFun (Function.update_of_ne same h.regs m.regs) _
  refine ⟨fun j => ?_, came_put barrier.came next, ?_, fun j late => ?_, fun j l other late late' => ?_⟩
  · rw [show (m.put i h).memory = m.memory from memory]
    exact barrier.lies j
  · rw [show (m.put i h).memory = m.memory from memory, arrived_quiet quiet]
    exact barrier.count
  · rw [late_iff quiet] at late
    rw [tickets j late]
    refine (barrier.ticket j late).imp id (And.imp_right fun all l => ?_)
    exact (late_iff quiet l).mpr (all l)
  · rw [late_iff quiet] at late late'
    rw [tickets j late, tickets l late']
    exact barrier.apart j l other late late'

/-- The turn that adds to the counter. -/
theorem Barrier.adds (barrier : Barrier space start counter k m) (adds : k i = 2) {h : Machine .rv32}
    (next : Came start counter 3 h) (ticket : h.regs 10#5 = m.memory.read (location counter) 4)
    (memory : h.memory = m.memory.write (location counter) 4 (m.memory.read (location counter) 4 + 1)) :
    Barrier space start counter (more k i) (m.put i h) := by
  obtain ⟨j, other, all⟩ := exists_other i
  have own : (m.put i h).regs i = h.regs := Function.update_self ..
  have theirs : (m.put i h).regs j = m.regs j := Function.update_of_ne other ..
  have late : 3 ≤ more k i i := by
    rw [more_self]
    omega
  have late_iff : 3 ≤ more k i j ↔ 3 ≤ k j := by rw [more_of_ne other]
  have before : arrived k = if 3 ≤ k j then 1 else 0 := by
    rw [arrived_of other, if_neg (by omega), Nat.zero_add]
  have first : 3 ≤ k j → m.regs j 10#5 = 0 := by
    intro there
    rcases barrier.ticket j there with none | ⟨-, both⟩
    · exact none
    · exact absurd (both i) (by omega)
  have mine : h.regs 10#5 = if 3 ≤ k j then 1 else 0 := by
    rw [ticket, barrier.count, before]
    split <;> rfl
  refine ⟨fun l => ?_, came_put barrier.came (adds ▸ next), ?_, fun l there => ?_,
    fun l l' apart there there' => ?_⟩
  · rw [show (m.put i h).memory = _ from memory]
    exact (barrier.lies l).write _
  · rw [show (m.put i h).memory = _ from memory, ByteMemory.read_write_self _ _ (by decide), barrier.count,
      before, arrived_of other, if_pos late]
    simp only [late_iff]
    split <;> rfl
  · rcases all l with rfl | rfl
    · rw [own, mine]
      by_cases there : 3 ≤ k j
      · rw [if_pos there]
        refine .inr ⟨rfl, fun l' => ?_⟩
        rcases all l' with rfl | rfl
        · exact late
        · exact late_iff.mpr there
      · rw [if_neg there]
        exact .inl rfl
    · rw [theirs]
      exact .inl (first (late_iff.mp there))
  · rcases all l with rfl | rfl <;> rcases all l' with rfl | rfl
    · exact absurd rfl apart
    · rw [own, theirs, mine, if_pos (late_iff.mp there'), first (late_iff.mp there')]
      decide
    · rw [own, theirs, mine, if_pos (late_iff.mp there), first (late_iff.mp there)]
      decide
    · exact absurd rfl apart

/-- The hart behind the loop has had its turns. -/
theorem Came.late_of_out {n : Nat} {h : Machine .rv32} (came : Came start counter n h)
    (out : h.pc = start + 16) : 3 < n ∧ h.regs 10#5 ≠ 0 := by
  have apart : ∀ l : BitVec 32, l ≠ 16 → start + l ≠ start + 16 := fun l other same =>
    other (BitVec.add_right_inj start |>.mp same)
  have late : 3 < n := by
    by_contra early
    refine apart (.ofNat 32 (4 * n)) ?_ ((came.straight (by omega)).symm.trans out)
    intro same
    have size : 4 * n % 2 ^ 32 = 16 := congrArg BitVec.toNat same
    omega
  refine ⟨late, fun none => ?_⟩
  have waits := came.waits late
  rw [if_pos none] at waits
  exact apart 12 (by decide) (waits.symm.trans out)

/-- A turn of a hart, or of none when the hart is behind the loop. -/
theorem barrier_step (barrier : Barrier space start counter k m) (i : Fin 2) :
    ∃ m', skipping (Out start) (Harts.step space) i m = some m' ∧
      Barrier space start counter (more k i) m' := by
  unfold skipping
  by_cases out : Out start i m
  · rw [if_pos out]
    obtain ⟨late, -⟩ := (barrier.came i).late_of_out out
    have came := barrier.came i
    have same : m.put i (m.hart i) = m := by simp [Harts.put, Harts.hart]
    refine ⟨m, rfl, same ▸ barrier.quiet (by omega) (h := m.hart i) ?_ rfl fun _ => rfl⟩
    exact
      { zero := came.zero
        pointer := fun early => by omega
        one := fun _ early => by omega
        limit := fun _ => came.limit (by omega)
        straight := fun early => by omega
        waits := fun _ => came.waits late }
  · rw [if_neg out]
    have put : ∀ {h}, (m.hart i).step (space i) = some h → Harts.step space i m = some (m.put i h) :=
      fun moved => congrArg (Option.map (m.put i)) moved
    rcases Nat.lt_trichotomy (k i) 2 with early | adds | late
    · obtain ⟨h, moved, next, memory⟩ := came_loads (barrier.lies i) (barrier.came i) early
      exact ⟨_, put moved, barrier.quiet (by omega) next memory fun late => by omega⟩
    · obtain ⟨h, moved, next, ticket, memory⟩ := came_adds (barrier.lies i) (adds ▸ barrier.came i)
      exact ⟨_, put moved, barrier.adds adds next ticket memory⟩
    · have ticket := (barrier.ticket i late).imp id And.left
      obtain ⟨h, moved, next, regs, memory⟩ :=
        came_waits (barrier.lies i) (barrier.came i) late out ticket
      exact ⟨_, put moved, barrier.quiet (by omega) next memory fun _ => congrFun regs _⟩

/-- The harts after any schedule. -/
theorem barrier_turns (barrier : Barrier space start counter k m) (schedule : List (Fin 2)) :
    ∃ m', turns (skipping (Out start) (Harts.step space)) schedule m = some m' ∧
      Barrier space start counter (fun i => k i + schedule.count i) m' := by
  induction schedule generalizing k m with
  | nil => exact ⟨m, rfl, barrier⟩
  | cons i schedule ih =>
    obtain ⟨t, moved, next⟩ := barrier_step barrier i
    obtain ⟨m', ran, last⟩ := ih next
    refine ⟨m', (turns_cons moved).trans ran, ?_⟩
    have counted : (fun j => k j + (i :: schedule).count j) = fun j => more k i j + schedule.count j := by
      funext j
      rw [List.count_cons]
      by_cases same : j = i
      · subst same
        simp
        omega
      · have other : (i == j) = false := beq_false_of_ne (Ne.symm same)
        rw [more_of_ne same, other]
        rfl
    rw [counted]
    exact last

/-- Who is behind the loop came last, and alone. -/
theorem Barrier.alone (barrier : Barrier space start counter k m) (out : Out start i m) :
    (∀ j, 3 ≤ k j) ∧ ∀ j, j ≠ i → ¬ Out start j m := by
  obtain ⟨late, last⟩ := (barrier.came i).late_of_out out
  rcases barrier.ticket i (Nat.le_of_lt late) with none | ⟨one, all⟩
  · exact absurd none last
  · refine ⟨all, fun j other out' => ?_⟩
    obtain ⟨-, last'⟩ := (barrier.came j).late_of_out out'
    rcases barrier.ticket j (all j) with none | ⟨one', -⟩
    · exact last' none
    · exact barrier.apart j i other (all j) (all i) (one'.trans one.symm)

/-- With four turns of each hart one of them is behind the loop. -/
theorem Barrier.leaves (barrier : Barrier space start counter k m) (late : ∀ j, 4 ≤ k j) :
    ∃ i, Out start i m := by
  have leaves : ∀ i, m.regs i 10#5 ≠ 0 → Out start i m := by
    intro i last
    have waits := (barrier.came i).waits (late i)
    rwa [if_neg (show ¬ (m.hart i).regs 10#5 = 0 from last)] at waits
  have different := barrier.apart 0 1 (by decide) (Nat.le_of_lt (late 0)) (Nat.le_of_lt (late 1))
  by_cases first : m.regs 0 10#5 = 0
  · exact ⟨1, leaves 1 fun second => different (first.trans second.symm)⟩
  · exact ⟨0, leaves 0 first⟩

/-! ## On the simulator -/

section Simulated

open Soc

variable {Dev : Type} {soc : Soc Dev} {base : Fin 2 → Platform (SocState Dev)}
  {windows memories : Fin 2 → List MemoryDMI} {c : Cluster .rv32 Dev (Fin 2)}

/-- The core is behind the loop. -/
def Left (start : Word .rv32) (i : Fin 2) (c : Cluster .rv32 Dev (Fin 2)) : Prop :=
  (c.harts i).pc = start + 16

instance (start : Word .rv32) (i : Fin 2) (c : Cluster .rv32 Dev (Fin 2)) : Decidable (Left start i c) :=
  inferInstanceAs (Decidable (_ = _))

/-- Two cores in front of the barrier, and every schedule of their `run_step`s up to the end of the
loop: a core leaves it only when both have arrived, the other one never does, and one has left it as
soon as both had four turns. -/
theorem barrier_leaves_one (alone : ∀ i, Alone (base i))
    (calm : ∀ i, Calm soc (base i) (windows i) (memories i) (c.hart i))
    (unlocked : c.world.lock.locked = false)
    (lies : ∀ i, Lies (Soc.space (base i) (memories i)) (soc.bytes c.world) start counter)
    (fresh : (soc.bytes c.world).read (location counter) 4 = 0)
    (here : ∀ i, (c.harts i).pc = start) (pointer : ∀ i, (c.harts i).regs 5 = counter)
    (schedule : List (Fin 2)) :
    ∃ c', turns (skipping (Left start) (Cluster.step fun i => soc.platform (base i) (windows i)))
        schedule c = some c' ∧
      (∀ i, Left start i c' → (∀ j, 3 ≤ schedule.count j) ∧ ∀ j, j ≠ i → ¬ Left start j c') ∧
      ((∀ j, 4 ≤ schedule.count j) → ∃ i, Left start i c') := by
  let m : Harts .rv32 (Fin 2) :=
    ⟨fun i => (c.harts i).pc, fun i => (c.harts i).regs, soc.bytes c.world⟩
  have together : Together soc base windows memories c m := ⟨calm, fun _ => ⟨rfl, rfl, rfl⟩, unlocked⟩
  have before : Barrier (fun i => Soc.space (base i) (memories i)) start counter (fun _ => 0) m :=
    { lies := lies
      came := fun i =>
        { zero := (calm i).zero
          pointer := fun _ => pointer i
          one := fun late => absurd late (by decide)
          limit := fun late => absurd late (by decide)
          straight := fun _ => (here i).trans (BitVec.add_zero start).symm
          waits := fun late => absurd late (by decide) }
      count := fresh
      ticket := fun _ late => absurd late (by decide)
      apart := fun _ _ _ late => absurd late (by decide) }
  have agree : ∀ {i} {c : Cluster .rv32 Dev (Fin 2)} {m : Harts .rv32 (Fin 2)},
      Together soc base windows memories c m → (Left start i c ↔ Out start i m) := by
    intro i c m together
    have same : (c.harts i).pc = m.pc i := (together.shows i).pc
    unfold Left Out
    rw [same]
  obtain ⟨m', ran, after⟩ := barrier_turns before schedule
  obtain ⟨c', ran', together'⟩ :=
    Simulates.turns (fun i => (together_step alone i).skipping agree) together ran
  have turned : (fun j => 0 + schedule.count j) = fun j => schedule.count j := by simp
  rw [turned] at after
  refine ⟨c', ran', fun i left => ?_, fun late => ?_⟩
  · obtain ⟨all, none⟩ := after.alone ((agree together').mp left)
    exact ⟨all, fun j other left' => none j other ((agree together').mp left')⟩
  · obtain ⟨i, out⟩ := after.leaves late
    exact ⟨i, (agree together').mpr out⟩

open Tiny32Mc in
/-- The program at the start of the memory of `tiny32-mc`, and the counter behind it. -/
def text : ByteMemory :=
  ByteMemory.write (fun _ => 0) 0 16 (0x00754063#32 ++ 0x0062A52F#32 ++ 0x00100393#32 ++ 0x00100313#32)

open Tiny32Mc in
/-- Both cores behind `la t0, exit_counter`. -/
def waiting : Cluster .rv32 Unit (Fin 2) where
  harts i :=
    { (booted text 0).harts i with
      regs := fun r => if r = 5 then 0x100 else 0 }
  world := Tiny32Mc.loaded text

open Tiny32Mc in
theorem lies_text : Lies (Soc.space Hifive.devices [ram]) (Tiny32Mc.soc.bytes (loaded text)) 0 0x100 where
  placed := by
    have each : ∀ k < 4, (Soc.space Hifive.devices [ram]).code (location (0 + .ofNat 32 (4 * k) : Word .rv32)) =
        true ∧ (Tiny32Mc.soc.bytes (loaded text)).read (location (0 + .ofNat 32 (4 * k) : Word .rv32)) 4 =
          program.getD k 0 := by decide
    intro k word lies
    obtain ⟨inside, -⟩ := List.getElem?_eq_some_iff.mp lies
    have here := each k inside
    rwa [List.getD_eq_getElem?_getD, lies] at here
  data := by decide
  aligned := by decide
  apart := by decide

open Tiny32Mc in
theorem barrier_leaves_one_waiting : ∃ c',
    turns (skipping (Left 0) (Cluster.step fun _ => Tiny32Mc.soc.platform Hifive.devices []))
        [0, 1, 1, 0, 0, 1, 0, 1, 0] waiting = some c' ∧
      ∃ i, Left 0 i c' ∧ ∀ j, j ≠ i → ¬ Left 0 j c' := by
  have even : (0 : Word .rv32) &&& 1 = 0 := by decide
  have calm (i : Fin 2) : Calm Tiny32Mc.soc Hifive.devices [] [ram] (waiting.hart i) :=
    (calm_booted text even i).of_kept ⟨fun _ _ => rfl, rfl, rfl, fun _ => id, rfl, id, id⟩ rfl even
  obtain ⟨c', ran, alone', some_⟩ := barrier_leaves_one alone calm rfl (fun _ => lies_text) (by decide)
    (fun _ => rfl) (fun _ => rfl) [0, 1, 1, 0, 0, 1, 0, 1, 0]
  obtain ⟨i, left⟩ := some_ (by decide)
  exact ⟨c', ran, i, left, (alone' i left).2⟩

end Simulated

end RiscvVp.Sw.Multicore
