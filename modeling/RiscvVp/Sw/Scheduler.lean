/-
# RiscvVp.Sw.Scheduler -- the coroutines of `sw/simple-scheduler`

`contextswitch` of `cor.S` stores the registers that a call keeps in the context of the coroutine that
leaves, and takes those of the next one.  It is a function for its caller: whoever switches away is
switched back to behind its call with the registers that it had, whatever the others did in the
meantime, as long as they keep their hands off its context.
-/
import RiscvVp.Iss.Listing
import RiscvVp.Soc.Harts

namespace RiscvVp.Sw.Scheduler

set_option autoImplicit false

open Lib Spec.Machine
open Spec (Space Machine Line Listed Fits location)

/-! ## Contexts -/

/-- `ra`, `sp` and `s0` up to `s11`. -/
def saved : List (BitVec 5) := [1, 2, 8, 9, 18, 19, 20, 21, 22, 23, 24, 25, 26, 27]

/-- Each register has its word in a context, and the program counter has that of `x0`. -/
def offset (r : BitVec 5) : BitVec 12 := .ofNat 12 (4 * r.toNat)

def slot (context : Word .rv32) (r : BitVec 5) : Word .rv32 := context + (offset r).signExtend 32

def contents (context : Word .rv32) (memory : ByteMemory) (r : BitVec 5) : Word .rv32 :=
  memory.read (location (slot context r)) 4

/-- The bytes of a context. -/
def Within (context : Word .rv32) (a : BitVec 64) : Prop := (a - location context).toNat < 128

/-- The 128 bytes of a context are words of the memory. -/
structure Context (space : Space) (context : Word .rv32) : Prop where
  fits : ∀ r, Fits space (slot context r)
  short : context.toNat + 128 ≤ 2 ^ 32

section Contexts

variable {space : Space} {context : Word .rv32} {memory : ByteMemory} {a : BitVec 64} {r : BitVec 5}

theorem offset_signExtend (r : BitVec 5) : (offset r).signExtend 32 = .ofNat 32 (4 * r.toNat) := by
  have all : ∀ r : BitVec 5, (offset r).signExtend 32 = .ofNat 32 (4 * r.toNat) := by decide
  exact all r

theorem Context.location_slot (own : Context space context) (r : BitVec 5) :
    location (slot context r) = location context + .ofNat 64 (4 * r.toNat) := by
  have bound : r.toNat < 32 := r.isLt
  have short := own.short
  have sum : (slot context r).toNat = context.toNat + 4 * r.toNat := by
    unfold slot
    rw [offset_signExtend]
    refine (BitVec.toNat_add (w := 32) context (.ofNat 32 (4 * r.toNat))).trans ?_
    rw [BitVec.toNat_ofNat]
    omega
  apply BitVec.eq_of_toNat_eq
  unfold location
  rw [sum]
  simp only [BitVec.toNat_ofNat, BitVec.toNat_add]
  omega

/-- The bytes of a slot lie in the context. -/
theorem Context.within (own : Context space context) {k : Nat} (inside : k < 4) :
    Within context (location (slot context r) + .ofNat 64 k) := by
  have bound : r.toNat < 32 := r.isLt
  unfold Within
  rw [own.location_slot]
  simp only [BitVec.toNat_sub, BitVec.toNat_add, BitVec.toNat_ofNat]
  omega

theorem Context.contents_congr (own : Context space context) {memory' : ByteMemory}
    (same : ∀ a, Within context a → memory' a = memory a) :
    contents context memory' = contents context memory := by
  funext r
  exact ByteMemory.read_congr fun k inside => same _ (own.within inside)

/-- A word is written to a slot. -/
theorem Context.contents_write (own : Context space context) (value : Word .rv32) :
    contents context (memory.write (location (slot context r)) 4 value) =
      Function.update (contents context memory) r value := by
  funext r'
  unfold contents
  rw [Function.update_apply]
  by_cases same : r' = r
  · rw [if_pos same, same]
    exact ByteMemory.read_write_self (n := 4) _ _ (by decide) value
  · rw [if_neg same]
    refine ByteMemory.read_write_of_apart _ _ _ fun k inside => ?_
    have bound : r.toNat < 32 := r.isLt
    have bound' : r'.toNat < 32 := r'.isLt
    have different : r'.toNat ≠ r.toNat := fun equal => same (BitVec.eq_of_toNat_eq equal)
    rw [own.location_slot, own.location_slot]
    simp only [BitVec.toNat_sub, BitVec.toNat_add, BitVec.toNat_ofNat]
    omega

theorem Context.write_outside (own : Context space context) (value : Word .rv32)
    (outside : ¬ Within context a) : memory.write (location (slot context r)) 4 value a = memory a := by
  refine if_neg fun near => outside ?_
  have here := own.within (r := r) near
  rwa [ByteMemory.add_offset] at here

end Contexts

/-! ## The code -/

def save (r : BitVec 5) : Line := .sw r 10 (offset r)

def restore (r : BitVec 5) : Line := .lw r 11 (offset r)

/-- `contextswitch` in the memory, from `entry` to the `ret` at `_resume`; `la t0,_resume` is an
`auipc` with an `addi`. -/
inductive Assembled (space : Space) (memory : ByteMemory) (free : BitVec 64 → Prop)
    (entry resume : Word .rv32) : Prop where
  | mk {here stop : Word .rv32} {hi : BitVec 32} {lo : BitVec 12}
      (saves : Listed space memory free entry (saved.map save) here)
      (restores : Listed space memory free here
        (.auipc 5 hi :: .addi 5 5 lo :: .sw 5 10 0 :: (saved.map restore ++ [.lw 5 11 0, .jr 5])) resume)
      (label : here + hi + lo.signExtend 32 = resume)
      (returns : Listed space memory free resume [.jr 1] stop) : Assembled space memory free entry resume

/-- What a switch leaves in the context of the coroutine: its registers, and where it goes on. -/
structure Suspended (context resume : Word .rv32) (regs : BitVec 5 → Word .rv32) (memory : ByteMemory) :
    Prop where
  pc : contents context memory 0 = resume
  saved : ∀ r ∈ saved, contents context memory r = regs r

section Code

variable {space : Space} {memory : ByteMemory} {free : BitVec 64 → Prop} {pc stop entry resume : Word .rv32}
  {regs : BitVec 5 → Word .rv32} {rs : List (BitVec 5)}

theorem Assembled.congr (assembled : Assembled space memory free entry resume) {memory' : ByteMemory}
    (same : ∀ a, free a → memory' a = memory a) : Assembled space memory' free entry resume := by
  obtain ⟨saves, restores, label, returns⟩ := assembled
  exact ⟨saves.congr same, restores.congr same, label, returns.congr same⟩

theorem listed_even {lines : List Line} (listed : Listed space memory free pc lines stop)
    (even : pc &&& 1 = 0) : stop &&& 1 = 0 := by
  induction listed with
  | nil => exact even
  | @cons _ _ _ _ word _ _ _ _ _ _ _ ih =>
    have sum := Iss.even_add even (Soc.length_even word)
    rw [Spec.add_eq] at sum
    exact ih sum

theorem Assembled.even (assembled : Assembled space memory free entry resume) (even : entry &&& 1 = 0) :
    resume &&& 1 = 0 := by
  obtain ⟨saves, restores, -, -⟩ := assembled
  exact listed_even restores (listed_even saves even)

/-- The stores. -/
theorem saves_run (zero : regs 0 = 0) (own : Context space (regs 10))
    (apart : ∀ a, free a → ¬ Within (regs 10) a)
    (listed : Listed space memory free pc (rs.map save) stop) :
    Triple (Machine.step space) (· = ⟨pc, regs, memory⟩) fun m => ∃ memory',
      m = ⟨stop, regs, memory'⟩ ∧
      (∀ r, contents (regs 10) memory' r = if r ∈ rs then regs r else contents (regs 10) memory r) ∧
      ∀ a, ¬ Within (regs 10) a → memory' a = memory a := by
  induction rs generalizing pc memory with
  | nil =>
    cases listed
    exact .skip fun m here => ⟨memory, here, fun r => by simp, fun _ _ => rfl⟩
  | cons r rs ih =>
    obtain ⟨next, rest, stepped⟩ := Listed.sw zero listed (own.fits r)
    let stored : ByteMemory := memory.write (location (slot (regs 10) r)) 4 (regs r)
    have kept {a : BitVec 64} (away : ¬ Within (regs 10) a) : stored a = memory a :=
      own.write_outside (regs r) away
    have rest' : Listed space stored free next (rs.map save) stop :=
      rest.congr fun a isFree => kept (apart a isFree)
    refine .cons (fun m here => ⟨_, here ▸ stepped, rfl⟩) ((ih rest').weaken (fun _ => Eq.symm) ?_)
    rintro m ⟨memory', rfl, inside, outside⟩
    refine ⟨memory', rfl, fun r' => ?_, fun a away => (outside a away).trans (kept away)⟩
    have written : contents (regs 10) stored = _ := own.contents_write (regs r)
    rw [inside r', written, Function.update_apply]
    by_cases same : r' = r
    · simp [same]
    · simp [same]

/-- The loads. -/
theorem restores_run (zero : regs 0 = 0) (next : Context space (regs 11))
    (plain : ∀ r ∈ rs, r ≠ 0 ∧ r ≠ 11) (listed : Listed space memory free pc (rs.map restore) stop) :
    Triple (Machine.step space) (· = ⟨pc, regs, memory⟩)
      (· = ⟨stop, fun r => if r ∈ rs then contents (regs 11) memory r else regs r, memory⟩) := by
  induction rs generalizing pc regs with
  | nil =>
    cases listed
    exact .skip fun m here => here.trans (by simp)
  | cons r rs ih =>
    obtain ⟨wanted, other⟩ := plain r (List.mem_cons_self ..)
    obtain ⟨_, rest, stepped⟩ := Listed.lw zero listed wanted (next.fits r)
    let regs' := Function.update regs r (contents (regs 11) memory r)
    have base : regs' 11 = regs 11 := Function.update_of_ne (Ne.symm other) _ _
    have zero' : regs' 0 = 0 := (Function.update_of_ne (Ne.symm wanted) _ _).trans zero
    have plain' : ∀ r ∈ rs, r ≠ 0 ∧ r ≠ 11 := fun r' mem => plain r' (List.mem_cons_of_mem _ mem)
    refine .cons (fun m here => ⟨_, here ▸ stepped, rfl⟩)
      ((ih zero' (base.symm ▸ next) plain' rest).weaken (fun _ => Eq.symm) ?_)
    rintro m rfl
    rw [base]
    congr 1
    funext r'
    by_cases same : r' = r
    · simp [regs', same]
    · simp [regs', same]

/-- `la t0,_resume` -/
theorem la_run {hi : BitVec 32} {lo : BitVec 12} {lines : List Line} (zero : regs 0 = 0)
    (label : pc + hi + lo.signExtend 32 = resume)
    (listed : Listed space memory free pc (.auipc 5 hi :: .addi 5 5 lo :: lines) stop) :
    ∃ next, Listed space memory free next lines stop ∧
      steps (Machine.step space) 2 ⟨pc, regs, memory⟩ =
        some ⟨next, Function.update regs 5 resume, memory⟩ := by
  obtain ⟨middle, rest, upper⟩ := Listed.auipc zero listed (by decide)
  have zero' : Function.update regs 5 (pc + hi) 0 = 0 := (Function.update_of_ne (by decide) _ _).trans zero
  obtain ⟨next, rest', lower⟩ := Listed.addi zero' rest (by decide)
  rw [Function.update_self, Function.update_idem, label] at lower
  exact ⟨next, rest', (steps_succ (n := 1) upper).trans (steps_one lower)⟩

/-- The registers of a coroutine that goes on. -/
def resumed (context : Word .rv32) (memory : ByteMemory) (regs : BitVec 5 → Word .rv32) (r : BitVec 5) :
    Word .rv32 :=
  if r = 5 then contents context memory 0
  else if r ∈ saved then contents context memory r
  else regs r

@[simp] theorem resumed_target (context : Word .rv32) : resumed context memory regs 5 = contents context memory 0 :=
  if_pos rfl

theorem resumed_saved (context : Word .rv32) {r : BitVec 5} (callee : r ∈ saved) :
    resumed context memory regs r = contents context memory r := by
  have other : ∀ r ∈ saved, r ≠ 5 := by decide
  exact (if_neg (other r callee)).trans (if_pos callee)

theorem resumed_other (context : Word .rv32) {r : BitVec 5} (temporary : r ≠ 5) (caller : r ∉ saved) :
    resumed context memory regs r = regs r := (if_neg temporary).trans (if_neg caller)

/-- A switch, up to the jump. -/
theorem switch_run (assembled : Assembled space memory free entry resume) (zero : regs 0 = 0)
    (own : Context space (regs 10)) (next : Context space (regs 11))
    (apart : ∀ a, free a → ¬ Within (regs 10) a) :
    Triple (Machine.step space) (· = ⟨entry, regs, memory⟩) fun m => ∃ memory',
      m = ⟨contents (regs 11) memory' 0 &&& ~~~1, resumed (regs 11) memory' regs, memory'⟩ ∧
      Suspended (regs 10) resume regs memory' ∧ ∀ a, ¬ Within (regs 10) a → memory' a = memory a := by
  intro s start
  obtain ⟨saves, restores, label, -⟩ := assembled
  obtain ⟨n, _, stored, memory₁, rfl, inside, outside⟩ := saves_run zero own apart saves start
  have code₁ := restores.congr fun a isFree => outside a (apart a isFree)
  obtain ⟨_, code₂, loaded⟩ := la_run zero label code₁
  -- `sw t0,0(a0)`
  let regs' := Function.update regs 5 resume
  have zero' : regs' 0 = 0 := (Function.update_of_ne (by decide) _ _).trans zero
  obtain ⟨_, code₃, marked⟩ := Listed.sw zero' code₂ (own.fits 0)
  let memory₂ : ByteMemory := memory₁.write (location (slot (regs 10) 0)) 4 resume
  have kept {a : BitVec 64} (away : ¬ Within (regs 10) a) : memory₂ a = memory₁ a :=
    own.write_outside resume away
  have code₄ : Listed space memory₂ free _ _ _ := code₃.congr fun a isFree => kept (apart a isFree)
  obtain ⟨middle, code₅, code₆⟩ := code₄.split
  -- the loads
  have plain : ∀ r ∈ saved, r ≠ 0 ∧ r ≠ 11 := by decide
  obtain ⟨k, _, restored, rfl⟩ := restores_run zero' next plain code₅ rfl
  let regs'' (r : BitVec 5) : Word .rv32 := if r ∈ saved then contents (regs 11) memory₂ r else regs' r
  -- `lw t0,0(a1)` and `jr t0`
  have zero'' : regs'' 0 = 0 := (if_neg (by decide)).trans zero'
  have base : regs'' 11 = regs 11 := (if_neg (by decide)).trans (Function.update_of_ne (by decide) _ _)
  obtain ⟨last, code₇, target⟩ := Listed.lw zero'' code₆ (by decide) (base.symm ▸ next.fits 0)
  have registers : Function.update regs'' 5
      (memory₂.read (location (regs'' 11 + (0 : BitVec 12).signExtend 32)) 4) =
      resumed (regs 11) memory₂ regs := by
    funext r
    rw [base, Function.update_apply]
    unfold resumed
    by_cases temporary : r = 5
    · rw [if_pos temporary, if_pos temporary]
      rfl
    · rw [if_neg temporary, if_neg temporary]
      exact if_congr Iff.rfl rfl (Function.update_of_ne temporary _ _)
  rw [registers] at target
  have zero₃ : resumed (regs 11) memory₂ regs 0 = 0 :=
    (resumed_other _ (by decide) (by decide)).trans zero
  have jumps := Listed.jr zero₃ code₇
  rw [resumed_target] at jumps
  have written : contents (regs 10) memory₂ = Function.update (contents (regs 10) memory₁) 0 resume :=
    own.contents_write resume
  refine ⟨_, _, steps_last (steps_last (steps_append (steps_last (steps_append stored loaded) marked)
    restored) target) jumps, memory₂, rfl, ⟨?_, fun r callee => ?_⟩, fun a away => ?_⟩
  · rw [written, Function.update_self]
  · have other : r ≠ 0 := (plain r callee).1
    rw [written, Function.update_of_ne other, inside r, if_pos callee]
  · rw [kept away, outside a away]

theorem clear_of_even (even : resume &&& 1 = 0) : resume &&& ~~~1 = resume := by
  apply BitVec.eq_of_getLsbD_eq
  intro k bound
  have bits := congrArg (·.getLsbD k) even
  simp only [BitVec.getLsbD_and, BitVec.getLsbD_not] at bits ⊢
  simp_all

/-- A switch back: behind the call, with the registers of then. -/
theorem back_run (assembled : Assembled space memory free entry resume) (even : entry &&& 1 = 0)
    (zero : regs 0 = 0) (own : Context space (regs 10)) (next : Context space (regs 11))
    (apart : ∀ a, free a → ¬ Within (regs 10) a) (disjoint : ∀ a, Within (regs 11) a → ¬ Within (regs 10) a)
    {kept : BitVec 5 → Word .rv32} (asleep : Suspended (regs 11) resume kept memory) :
    Triple (Machine.step space) (· = ⟨entry, regs, memory⟩) fun m => m.pc = kept 1 &&& ~~~1 ∧
      (∀ r ∈ saved, m.regs r = kept r) ∧ Suspended (regs 10) resume regs m.memory ∧
      ∀ a, ¬ Within (regs 10) a → m.memory a = memory a := by
  intro s start
  obtain ⟨n, _, switched, memory', rfl, left, outside⟩ :=
    switch_run assembled zero own next apart start
  have same : contents (regs 11) memory' = contents (regs 11) memory :=
    next.contents_congr fun a inside => outside a (disjoint a inside)
  have callee : ∀ r ∈ saved, resumed (regs 11) memory' regs r = kept r := by
    intro r mem
    rw [resumed_saved _ mem, same, asleep.saved r mem]
  rw [same, asleep.pc, clear_of_even (assembled.even even)] at switched
  obtain ⟨-, -, -, returns⟩ := assembled.congr fun a isFree => outside a (apart a isFree)
  have zero' : resumed (regs 11) memory' regs 0 = 0 :=
    (resumed_other _ (by decide) (by decide)).trans zero
  have returned := Listed.jr zero' returns
  rw [callee 1 (by decide)] at returned
  exact ⟨n + 1, _, steps_last switched returned, rfl, callee, left, outside⟩

end Code

/-! ## On the simulator -/

section Simulated

open Soc

variable {Dev : Type} {soc : Soc Dev} {base : Platform (SocState Dev)} {windows memories : List MemoryDMI}
  {free : BitVec 64 → Prop} {entry resume : Word .rv32} {s : Iss .rv32 (SocState Dev)}

/-- A core in front of `contextswitch`. -/
structure Switching (soc : Soc Dev) (base : Platform (SocState Dev)) (windows memories : List MemoryDMI)
    (free : BitVec 64 → Prop) (entry resume : Word .rv32) (s : Iss .rv32 (SocState Dev)) : Prop where
  calm : Calm soc base windows memories s
  here : s.pc = entry
  assembled : Assembled (Soc.space base memories) (soc.bytes s.world) free entry resume
  own : Context (Soc.space base memories) (s.regs 10)
  next : Context (Soc.space base memories) (s.regs 11)
  apart : ∀ a, free a → ¬ Within (s.regs 10) a

theorem Switching.follows (switching : Switching soc base windows memories free entry resume s) :
    Follows soc base windows memories s ⟨entry, s.regs, soc.bytes s.world⟩ :=
  ⟨switching.calm, switching.here, rfl, rfl⟩

/-- A coroutine calls `contextswitch`, and the next one goes on with what its own context holds.
Whenever and from wherever it is switched back to, with its context as it was left, it is behind its
call and has its registers; the others find all bytes but those of the context that is left as they
were. -/
theorem switched_back (alone : Alone base)
    (switching : Switching soc base windows memories free entry resume s) :
    ∃ n t, steps (Iss.runStep (soc.platform base windows)).next n s = some t ∧
      t.pc = contents (s.regs 11) (soc.bytes t.world) 0 &&& ~~~1 ∧
      t.regs = resumed (s.regs 11) (soc.bytes t.world) s.regs ∧
      (∀ a, ¬ Within (s.regs 10) a → soc.bytes t.world a = soc.bytes s.world a) ∧
      ∀ u, Switching soc base windows memories free entry resume u → u.regs 11 = s.regs 10 →
        (∀ a, Within (s.regs 10) a → ¬ Within (u.regs 10) a ∧ soc.bytes u.world a = soc.bytes t.world a) →
        ∃ k v, steps (Iss.runStep (soc.platform base windows)).next k u = some v ∧
          v.pc = s.regs 1 &&& ~~~1 ∧ (∀ r ∈ saved, v.regs r = s.regs r) ∧
          ∀ a, ¬ Within (u.regs 10) a → soc.bytes v.world a = soc.bytes u.world a := by
  have follow : Simulates (Follows soc base windows memories : Iss .rv32 _ → _) _ _ := simulates alone
  obtain ⟨n, t, ran, m, ⟨-, shows⟩, memory, rfl, asleep, outside⟩ :=
    follow.triple (switch_run switching.assembled switching.calm.zero switching.own switching.next
      switching.apart) ⟨_, switching.follows, rfl⟩
  have bytes : soc.bytes t.world = memory := shows.bytes
  subst bytes
  refine ⟨n, t, ran, shows.pc, shows.regs, outside, fun u later back kept => ?_⟩
  have disjoint : ∀ a, Within (u.regs 11) a → ¬ Within (u.regs 10) a := by
    rw [back]
    exact fun a inside => (kept a inside).1
  have asleep' : Suspended (u.regs 11) resume s.regs (soc.bytes u.world) := by
    have same := switching.own.contents_congr fun a inside => (kept a inside).2
    rw [back]
    exact ⟨by rw [same, asleep.pc], fun r mem => by rw [same, asleep.saved r mem]⟩
  obtain ⟨k, v, ran', m, ⟨-, shows'⟩, pc, callee, -, outside'⟩ :=
    follow.triple (back_run later.assembled (later.here ▸ later.calm.even) later.calm.zero later.own
      later.next later.apart disjoint asleep') ⟨_, later.follows, rfl⟩
  refine ⟨k, v, ran', shows'.pc.trans pc, fun r mem => ?_, fun a away => ?_⟩
  · rw [shows'.regs, callee r mem]
  · rw [shows'.bytes, outside' a away]

/-! ### A program in the memory of `tiny32-mc` -/

def saveWord (r : BitVec 5) : Instruction :=
  (offset r).extractLsb' 5 7 ++ r ++ 10#5 ++ 2#3 ++ (offset r).extractLsb' 0 5 ++ 0x23#7

def restoreWord (r : BitVec 5) : Instruction := offset r ++ 11#5 ++ 2#3 ++ r ++ 0x03#7

/-- `contextswitch` with instructions of 32 bits, at 0. -/
def words : List Instruction :=
  saved.map saveWord ++ ((0x00000297 :: 0x04C28293 :: 0x00552023 ::
    (saved.map restoreWord ++ [0x0005A283, 0x00028067])) ++ [0x00008067])

/-- The program, and the context of a coroutine that goes on at 0x300. -/
def text : ByteMemory := fun a =>
  if a = 0x1081 then 3 else (words.getD (a.toNat / 4) 0).extractLsb' (8 * (a.toNat % 4)) 8

/-- A word of the program is what its line says. -/
def Makes (word : Instruction) (line : Line) : Prop :=
  Spec.isFull word = true ∧ ∃ i, Spec.decode .rv32 word = some (line.op, i) ∧ line.fields i

theorem makes_save : ∀ r ∈ saved, Makes (saveWord r) (save r) := by
  have all : ∀ r ∈ saved, Spec.isFull (saveWord r) = true ∧
      Spec.decode .rv32 (saveWord r) = some (.sw, saveWord r) ∧
      Spec.rs2 (saveWord r) = r ∧ Spec.rs1 (saveWord r) = 10 ∧ Spec.immS (saveWord r) = offset r := by decide
  intro r mem
  exact ⟨(all r mem).1, _, (all r mem).2⟩

theorem makes_restore : ∀ r ∈ saved, Makes (restoreWord r) (restore r) := by
  have all : ∀ r ∈ saved, Spec.isFull (restoreWord r) = true ∧
      Spec.decode .rv32 (restoreWord r) = some (.lw, restoreWord r) ∧
      Spec.rd (restoreWord r) = r ∧ Spec.rs1 (restoreWord r) = 11 ∧
      Spec.immI (restoreWord r) = offset r := by decide
  intro r mem
  exact ⟨(all r mem).1, _, (all r mem).2⟩

open Tiny32Mc in
theorem placed_text : Placed (Soc.space Hifive.devices [ram]) (Tiny32Mc.soc.bytes (loaded text))
    (0 : Word .rv32) words := by
  have each : ∀ k < 34, (Soc.space Hifive.devices [ram]).code (location (0 + .ofNat 32 (4 * k) : Word .rv32)) =
      true ∧ (Tiny32Mc.soc.bytes (loaded text)).read (location (0 + .ofNat 32 (4 * k) : Word .rv32)) 4 =
        words.getD k 0 := by decide
  intro k word lies
  obtain ⟨inside, -⟩ := List.getElem?_eq_some_iff.mp lies
  have here := each k inside
  rwa [List.getD_eq_getElem?_getD, lies] at here

open Tiny32Mc in
theorem assembled_text : Assembled (Soc.space Hifive.devices [ram]) (Tiny32Mc.soc.bytes (loaded text))
    (fun a => a.toNat < 0x1000) 0 0x84 := by
  have each {line : BitVec 5 → Line} {word : BitVec 5 → Instruction}
      (makes : ∀ r ∈ saved, Makes (word r) (line r)) :
      List.Forall₂ Makes (saved.map word) (saved.map line) :=
    List.forall₂_map_left_iff.mpr (List.forall₂_map_right_iff.mpr (List.forall₂_same.mpr makes))
  have upper : Makes 0x00000297 (.auipc 5 0) :=
    ⟨by decide, 0x00000297, by decide, by decide, by decide⟩
  have lower : Makes 0x04C28293 (.addi 5 5 0x4C) :=
    ⟨by decide, 0x04C28293, by decide, by decide, by decide, by decide⟩
  have marks : Makes 0x00552023 (.sw 5 10 0) :=
    ⟨by decide, 0x00552023, by decide, by decide, by decide, by decide⟩
  have target : Makes 0x0005A283 (.lw 5 11 0) :=
    ⟨by decide, 0x0005A283, by decide, by decide, by decide, by decide⟩
  have jumps : Makes 0x00028067 (.jr 5) :=
    ⟨by decide, 0x00028067, by decide, by decide, by decide, by decide⟩
  have ret : Makes 0x00008067 (.jr 1) :=
    ⟨by decide, 0x00008067, by decide, by decide, by decide, by decide⟩
  have loads := List.rel_append (each makes_restore) (.cons target (.cons jumps .nil))
  exact ⟨.of_words (each makes_save) placed_text.left (by decide),
    .of_words (.cons upper (.cons lower (.cons marks loads))) placed_text.right.left (by decide), by decide,
    .of_words (.cons ret .nil) placed_text.right.right (by decide)⟩

/-- A core in front of `contextswitch`, with the bytes of the memory, its own context and the next one. -/
def switchingCore (memory : ByteMemory) (own next : Word .rv32) : Iss .rv32 (SocState Unit) :=
  { (Tiny32Mc.booted memory 0).hart ⟨0, Nat.zero_lt_two⟩ with
    regs := fun r =>
      if r = 10 then own else if r = 11 then next else if r = 1 then 0x200 else if r = 8 then 0x55 else 0 }

open Tiny32Mc in
theorem bytes_loaded (memory : ByteMemory) {a : BitVec 64} (inside : a.toNat < 0x01FFFFFF) :
    Tiny32Mc.soc.bytes (loaded memory) a = memory a := by
  have decoded := (covers_ram memory).decodes a (MemoryDMI.contains_iff.mpr ⟨Nat.zero_le _, by
    have stop : ram.stop.toNat = 0x02000000 := rfl
    omega⟩)
  unfold Soc.bytes
  rw [decoded]
  exact congrArg memory (BitVec.sub_zero a)

/-- The contexts at 0x1000 and at 0x1080 have no address in common, nor with the code. -/
theorem apart_contexts {a : BitVec 64} :
    (a.toNat < 0x1000 → ¬ Within 0x1000 a ∧ ¬ Within 0x1080 a) ∧
      (Within 0x1000 a → a.toNat < 0x01FFFFFF ∧ ¬ Within 0x1080 a) := by
  have first : location (0x1000 : Word .rv32) = 0x1000 := by decide
  have second : location (0x1080 : Word .rv32) = 0x1080 := by decide
  have value : (0x1000 : BitVec 64).toNat = 0x1000 := rfl
  have value' : (0x1080 : BitVec 64).toNat = 0x1080 := rfl
  unfold Within
  rw [first, second, BitVec.toNat_sub, BitVec.toNat_sub]
  omega

open Tiny32Mc in
theorem switching_core {memory : ByteMemory} (code : ∀ a, a.toNat < 0x1000 → memory a = text a)
    {own next : Word .rv32} (contexts : own = 0x1000 ∧ next = 0x1080 ∨ own = 0x1080 ∧ next = 0x1000) :
    Switching Tiny32Mc.soc Hifive.devices [] [ram] (fun a => a.toNat < 0x1000) 0 0x84
      (switchingCore memory own next) where
  calm := by
    have even : (0 : Word .rv32) &&& 1 = 0 := by decide
    exact (calm_booted memory even 0).of_kept ⟨fun _ _ => rfl, rfl, rfl, fun _ => id, rfl, id, id⟩ rfl even
  here := rfl
  assembled := assembled_text.congr fun a below => by
    have inside : a.toNat < 0x01FFFFFF := Nat.lt_trans below (by decide)
    exact (bytes_loaded memory inside).trans ((code a below).trans (bytes_loaded text inside).symm)
  own := by
    show Context _ own
    obtain ⟨rfl, -⟩ | ⟨rfl, -⟩ := contexts <;> exact ⟨by decide, by decide⟩
  next := by
    show Context _ next
    obtain ⟨-, rfl⟩ | ⟨-, rfl⟩ := contexts <;> exact ⟨by decide, by decide⟩
  apart a below := by
    show ¬ Within own a
    obtain ⟨rfl, -⟩ | ⟨rfl, -⟩ := contexts
    · exact (apart_contexts.1 below).1
    · exact (apart_contexts.1 below).2

/-- A coroutine with its context at 0x1000 hands over to one that goes on at 0x300, and is switched
back to when that one hands over in turn. -/
theorem switched_back_leaving : ∃ n t,
    steps (Iss.runStep (Tiny32Mc.soc.platform Hifive.devices [])).next n (switchingCore text 0x1000 0x1080) = some t ∧
      t.pc = 0x300 ∧ ∃ k v,
        steps (Iss.runStep (Tiny32Mc.soc.platform Hifive.devices [])).next k
          (switchingCore (Tiny32Mc.soc.bytes t.world) 0x1080 0x1000) = some v ∧ v.pc = 0x200 ∧ v.regs 8 = 0x55 := by
  have unchanged : ∀ a, a.toNat < 0x1000 → text a = text a := fun _ _ => rfl
  have switching := switching_core unchanged (.inl ⟨rfl, rfl⟩)
  obtain ⟨n, t, ran, pc, -, outside, back⟩ := switched_back (Tiny32Mc.alone 0) switching
  have kept : ∀ a, ¬ Within 0x1000 a → Tiny32Mc.soc.bytes t.world a =
      Tiny32Mc.soc.bytes (switchingCore text 0x1000 0x1080).world a := outside
  have code (a : BitVec 64) (below : a.toNat < 0x1000) : Tiny32Mc.soc.bytes t.world a = text a :=
    (kept a (apart_contexts.1 below).1).trans (bytes_loaded text (Nat.lt_trans below (by decide)))
  obtain ⟨k, v, ran', pc', saved, -⟩ := back _ (switching_core code (.inr ⟨rfl, rfl⟩)) rfl fun a inside =>
    ⟨(apart_contexts.2 inside).2, bytes_loaded _ (apart_contexts.2 inside).1⟩
  have same := switching.next.contents_congr fun a inside => kept a fun own => (apart_contexts.2 own).2 inside
  rw [same] at pc
  exact ⟨n, t, ran, pc.trans (by decide), k, v, ran', pc'.trans (by decide), (saved 8 (by decide)).trans (by decide)⟩

end Simulated

end RiscvVp.Sw.Scheduler
