/-
# RiscvVp.Iss.Machine -- the machine that the ISA describes

A program counter, registers and bytes.  A step takes the word at the program counter and does what
the specification says about the computational instructions, the jumps, the branches, the loads and
stores, the fences and the read-modify-writes of RV32IMAC and RV64IMAC.  It has no next state where
the ISA would trap or leave this part of it: at a misaligned access, at an address without memory,
at an instruction of the privileged architecture.  There is no bus here, no cache, no simulated
time, and the instructions are those of `RiscvVp.Iss.Encoding`.
-/
import RiscvVp.Iss.Encoding
import RiscvVp.Lib.ByteMemory
import RiscvVp.Lib.Triple
import RiscvVp.Lib.TwosComplement
import Mathlib.Logic.Function.Basic

namespace RiscvVp.Spec

set_option autoImplicit false

open Lib

/-! ## Accesses to the memory -/

def immS (i : Instruction) : BitVec 12 := i.extractLsb' 25 7 ++ i.extractLsb' 7 5

/-- What an instruction does to the bytes at an address: the word that `rd` receives for them, and
what they become. -/
structure Access (isa : Isa) where
  addr : BitVec 64
  bytes : Nat
  result : BitVec (8 * bytes) → Option (Word isa)
  update : BitVec (8 * bytes) → Option (BitVec (8 * bytes))

section Accesses

variable {isa : Isa}

/-- An address of the core on the bus. -/
def location (address : Word isa) : BitVec 64 := .ofNat 64 address.toNat

def load (bytes : Nat) (value : BitVec (8 * bytes) → Int) (address : Word isa) : Option (Access isa) :=
  some ⟨location address, bytes, fun data => some (.ofInt _ (value data)), fun _ => none⟩

def store (bytes : Nat) (value address : Word isa) : Option (Access isa) :=
  some ⟨location address, bytes, fun _ => none, fun _ => some (.ofNat _ value.toNat)⟩

def amo (bytes : Nat) (operation : BitVec (8 * bytes) → BitVec (8 * bytes) → BitVec (8 * bytes))
    (value address : Word isa) : Option (Access isa) :=
  some ⟨location address, bytes, fun data => some (.ofInt _ data.toInt),
    fun data => some (operation data (.ofNat _ value.toNat))⟩

/-- An access of RV64 only. -/
def wide (access : Option (Access isa)) : Option (Access isa) :=
  match isa with
  | .rv32 => none
  | .rv64 => access

section Atomic

variable {w : Nat} (a b : BitVec w)

def swap : BitVec w := let _ := a; b
def min : BitVec w := if a.toInt ≤ b.toInt then a else b
def max : BitVec w := if b.toInt ≤ a.toInt then a else b
def minu : BitVec w := if a.toNat ≤ b.toNat then a else b
def maxu : BitVec w := if b.toNat ≤ a.toNat then a else b

end Atomic

/-- The access of an instruction, given the words in `rs1` and `rs2`. -/
def access (isa : Isa) (i : Instruction) (a b : Word isa) : Mapping → Option (Access isa)
  | .lb => load 1 BitVec.toInt (add a ((immI i).signExtend _))
  | .lh => load 2 BitVec.toInt (add a ((immI i).signExtend _))
  | .lw => load 4 BitVec.toInt (add a ((immI i).signExtend _))
  | .ld => wide (load 8 BitVec.toInt (add a ((immI i).signExtend _)))
  | .lbu => load 1 (fun data => data.toNat) (add a ((immI i).signExtend _))
  | .lhu => load 2 (fun data => data.toNat) (add a ((immI i).signExtend _))
  | .lwu => wide (load 4 (fun data => data.toNat) (add a ((immI i).signExtend _)))
  | .sb => store 1 b (add a ((immS i).signExtend _))
  | .sh => store 2 b (add a ((immS i).signExtend _))
  | .sw => store 4 b (add a ((immS i).signExtend _))
  | .sd => wide (store 8 b (add a ((immS i).signExtend _)))
  | .amoswapW => amo 4 swap b a
  | .amoaddW => amo 4 add b a
  | .amoxorW => amo 4 (· ^^^ ·) b a
  | .amoandW => amo 4 (· &&& ·) b a
  | .amoorW => amo 4 (· ||| ·) b a
  | .amominW => amo 4 min b a
  | .amominuW => amo 4 minu b a
  | .amomaxW => amo 4 max b a
  | .amomaxuW => amo 4 maxu b a
  | .amoswapD => wide (amo 8 swap b a)
  | .amoaddD => wide (amo 8 add b a)
  | .amoxorD => wide (amo 8 (· ^^^ ·) b a)
  | .amoandD => wide (amo 8 (· &&& ·) b a)
  | .amoorD => wide (amo 8 (· ||| ·) b a)
  | .amominD => wide (amo 8 min b a)
  | .amominuD => wide (amo 8 minu b a)
  | .amomaxD => wide (amo 8 max b a)
  | .amomaxuD => wide (amo 8 maxu b a)
  | _ => none

end Accesses

/-! ## Fields and registers -/

section Fields

variable {i word : Instruction}

/-- The fields above the opcode. -/
theorem fields_eq (same : word.extractLsb' 7 25 = i.extractLsb' 7 25) :
    rd word = rd i ∧ rs1 word = rs1 i ∧ immI word = immI i := by
  have field (start len : Nat) (inside : start + len ≤ 25) (i : BitVec 32) :
      i.extractLsb' (7 + start) len = (i.extractLsb' 7 25).extractLsb' start len := by
    refine BitVec.eq_of_getLsbD_eq fun k below => ?_
    have within : start + k < 25 := by omega
    simp [below, within, Nat.add_assoc]
  have equal (start len : Nat) (inside : start + len ≤ 25) :
      word.extractLsb' (7 + start) len = i.extractLsb' (7 + start) len := by
    rw [field start len inside word, field start len inside i, same]
  exact ⟨equal 0 5 (by decide), equal 8 5 (by decide), equal 13 12 (by decide)⟩

/-- A result that nobody wants. -/
theorem writeRd_nowhere {isa : Isa} {e : Effect isa} {regs : BitVec 5 → Word isa} (nowhere : rd i = 0) :
    writeRd i e regs = fun r => if r = 0 then 0 else regs r := by
  funext r
  unfold writeRd
  rw [nowhere]
  by_cases none : r = 0
  · rw [if_pos none, if_pos none]
  · rw [if_neg none, if_neg none]
    cases e.value with
    | none => rfl
    | some value => exact if_neg none

end Fields

/-! ## The machine -/

structure Machine (isa : Isa) where
  pc : Word isa
  regs : BitVec 5 → Word isa
  memory : ByteMemory

/-- The addresses of the memories: where an instruction can be fetched, and where data lie.  A core
fetches four bytes, whatever the instruction at the beginning of them takes. -/
structure Space where
  code : BitVec 64 → Bool
  data : BitVec 64 → Nat → Bool

namespace Machine

variable {isa : Isa} (space : Space) (m : Machine isa)

/-- The word at the program counter. -/
def word : Instruction := m.memory.read (location m.pc) 4

def transfer (i : Instruction) (e : Effect isa) (next : Word isa) : Machine isa :=
  { m with
    pc := e.target.getD next
    regs := writeRd i e m.regs }

def touch (i : Instruction) (acc : Access isa) (next : Word isa) : Machine isa where
  pc := next
  regs := writeRd i ⟨acc.result (m.memory.read acc.addr acc.bytes), none⟩ m.regs
  memory :=
    match acc.update (m.memory.read acc.addr acc.bytes) with
    | some value => m.memory.write acc.addr acc.bytes value
    | none => m.memory

section Touch

variable {i : Instruction} {acc : Access isa} {next : Word isa}

theorem touch_memory_some {value : BitVec (8 * acc.bytes)}
    (updates : acc.update (m.memory.read acc.addr acc.bytes) = some value) :
    (m.touch i acc next).memory = m.memory.write acc.addr acc.bytes value := by
  simp [touch, updates]

theorem touch_memory_none (updates : acc.update (m.memory.read acc.addr acc.bytes) = none) :
    (m.touch i acc next).memory = m.memory := by
  simp [touch, updates]

end Touch

/-- One instruction, when it is decoded and the next one is at `next`. -/
def perform (next : Word isa) (op : Mapping) (i : Instruction) : Option (Machine isa) :=
  match effect isa i (m.regs (rs1 i)) (m.regs (rs2 i)) m.pc next op with
  | some e => some (m.transfer i e next)
  | none =>
      match access isa i (m.regs (rs1 i)) (m.regs (rs2 i)) op with
      | some acc =>
          if acc.addr.toNat % acc.bytes = 0 ∧ space.data acc.addr acc.bytes = true then
            some (m.touch i acc next)
          else none
      | none => if op = .fence ∨ op = .fenceI then some { m with pc := next } else none

def step : Option (Machine isa) :=
  if space.code (location m.pc) = true then
    match decode isa m.word with
    | some (op, i) => m.perform space (m.pc + length isa m.word) op i
    | none => none
  else none

/-- The word lies at the program counter and is an instruction. -/
theorem step_of_word {word i : Instruction} {op : Mapping} (held : space.code (location m.pc) = true)
    (lies : m.memory.read (location m.pc) 4 = word) (decodes : decode isa word = some (op, i)) :
    m.step space = m.perform space (m.pc + length isa word) op i := by
  unfold step
  have found : m.word = word := lies
  rw [if_pos held, found, decodes]

theorem step_computes {word i : Instruction} {op : Mapping} {e : Effect isa}
    (held : space.code (location m.pc) = true) (lies : m.memory.read (location m.pc) 4 = word)
    (decodes : decode isa word = some (op, i))
    (defined : effect isa i (m.regs (rs1 i)) (m.regs (rs2 i)) m.pc (m.pc + length isa word) op = some e) :
    m.step space = some (m.transfer i e (m.pc + length isa word)) := by
  rw [step_of_word space m held lies decodes]
  unfold perform
  rw [defined]

theorem step_eq_some {m' : Machine isa} (stepped : m.step space = some m') :
    ∃ op i, space.code (location m.pc) = true ∧ decode isa m.word = some (op, i) ∧
      m.perform space (m.pc + length isa m.word) op i = some m' := by
  unfold step at stepped
  split at stepped
  case isFalse => cases stepped
  case isTrue held =>
    split at stepped
    case h_2 => cases stepped
    case h_1 op i decodes => exact ⟨op, i, held, decodes, stepped⟩

/-- What the simulator decodes is carried out in the same way. -/
theorem perform_of_alike {next : Word isa} {op op' : Mapping} {i i' : Instruction} (alike : Alike op' i' op i) :
    m.perform space next op' i' = m.perform space next op i := by
  cases alike with
  | same => rfl
  | nop =>
    have discards (i : Instruction) (value : Word isa) (nowhere : rd i = 0) :
        m.transfer i ⟨some value, none⟩ next =
          ⟨next, fun r => if r = 0 then 0 else m.regs r, m.memory⟩ := by
      unfold transfer
      rw [writeRd_nowhere nowhere]
      rfl
    show some (m.transfer _ ⟨some _, none⟩ next) = some (m.transfer _ ⟨some _, none⟩ next)
    rw [discards _ _ (by decide), discards _ _ (by decide)]
  | addiw same =>
    obtain ⟨destination, source, immediate⟩ := fields_eq same
    have effects (b b' : Word isa) : effect isa i' (m.regs (rs1 i')) b m.pc next .addiw =
        effect isa i (m.regs (rs1 i)) b' m.pc next .addiw := by
      rw [source]
      unfold effect
      rw [immediate]
    have transfers (e : Effect isa) : m.transfer i' e next = m.transfer i e next := by
      unfold transfer writeRd
      rw [destination]
    unfold perform
    rw [effects _ (m.regs (rs2 i))]
    split
    case h_1 => rw [transfers]
    case h_2 => rfl

/-- The instruction of a step, as the simulator decodes it. -/
theorem step_decoded {m' : Machine isa} (stepped : m.step space = some m') :
    ∃ op i, space.code (location m.pc) = true ∧ m.word.decoded isa = some (op, i) ∧
      m.perform space (m.pc + m.word.size isa) op i = some m' := by
  obtain ⟨op, i, held, decodes, performed⟩ := m.step_eq_some space stepped
  obtain ⟨op', i', decoded, alike⟩ := decoded_of_decode decodes
  refine ⟨op', i', held, decoded, ?_⟩
  rw [m.perform_of_alike space alike, ← length_eq]
  exact performed

/-- What an instruction of the machine is. -/
inductive Kind (next : Word isa) (op : Mapping) (i : Instruction) (m' : Machine isa) : Prop where
  | computes (e : Effect isa) : effect isa i (m.regs (rs1 i)) (m.regs (rs2 i)) m.pc next op = some e →
      m' = m.transfer i e next → Kind next op i m'
  | accesses (acc : Access isa) : access isa i (m.regs (rs1 i)) (m.regs (rs2 i)) op = some acc →
      acc.addr.toNat % acc.bytes = 0 → space.data acc.addr acc.bytes = true →
      m' = m.touch i acc next → Kind next op i m'
  | orders : op = .fence ∨ op = .fenceI → m' = { m with pc := next } → Kind next op i m'

theorem kind_of_perform {next : Word isa} {op : Mapping} {i : Instruction} {m' : Machine isa}
    (performed : m.perform space next op i = some m') : m.Kind space next op i m' := by
  unfold perform at performed
  split at performed
  case h_1 e defined =>
    cases performed
    exact .computes e defined rfl
  case h_2 =>
    split at performed
    case h_1 acc defined =>
      split at performed
      case isTrue fits =>
        cases performed
        exact .accesses acc defined fits.1 fits.2 rfl
      case isFalse => cases performed
    case h_2 =>
      split at performed
      case isTrue fence =>
        cases performed
        exact .orders fence rfl
      case isFalse => cases performed

/-! ## Programs in the memory -/

/-- The words of a program lie from `start` on, where they can be fetched. -/
def Placed (memory : ByteMemory) (start : Word isa) (program : List Instruction) : Prop :=
  ∀ ⦃k word⦄, program[k]? = some word →
    space.code (location (start + .ofNat _ (4 * k))) = true ∧
      memory.read (location (start + .ofNat _ (4 * k))) 4 = word

/-- The machine in front of the `k`-th instruction of a program. -/
def at_ (memory : ByteMemory) (start : Word isa) (k : Nat) (regs : BitVec 5 → Word isa) : Machine isa :=
  ⟨start + .ofNat _ (4 * k), regs, memory⟩

/-- An instruction of a program that computes or jumps. -/
theorem Placed.step {space : Space} {memory : ByteMemory} {start : Word isa} {program : List Instruction}
    (placed : Placed space memory start program) {k : Nat} {word i : Instruction} {op : Mapping}
    {e : Effect isa} {regs : BitVec 5 → Word isa} (lies : program[k]? = some word)
    (full : isFull word = true) (decodes : decode isa word = some (op, i))
    (defined : effect isa i (regs (rs1 i)) (regs (rs2 i)) (start + .ofNat _ (4 * k))
      (start + .ofNat _ (4 * (k + 1))) op = some e) :
    (at_ memory start k regs).step space =
      some ⟨e.target.getD (start + .ofNat _ (4 * (k + 1))), writeRd i e regs, memory⟩ := by
  obtain ⟨held, found⟩ := placed lies
  have size : length isa word = 4 := if_pos full
  have next : start + .ofNat _ (4 * k) + length isa word = start + .ofNat _ (4 * (k + 1)) := by
    rw [size, BitVec.add_assoc]
    congr 1
    exact (BitVec.ofNat_add (4 * k) 4).symm
  have stepped := step_computes space (at_ memory start k regs) held found decodes
    (e := e) (by rw [show (at_ memory start k regs).pc + _ = _ from next]; exact defined)
  rw [stepped]
  unfold transfer
  rw [show (at_ memory start k regs).pc + _ = _ from next]
  rfl

/-- An instruction of a program that touches the memory. -/
theorem Placed.touch {space : Space} {memory : ByteMemory} {start : Word isa} {program : List Instruction}
    (placed : Placed space memory start program) {k : Nat} {word i : Instruction} {op : Mapping}
    {acc : Access isa} {regs : BitVec 5 → Word isa} (lies : program[k]? = some word)
    (full : isFull word = true) (decodes : decode isa word = some (op, i))
    (nothing : ∀ pc next, effect isa i (regs (rs1 i)) (regs (rs2 i)) pc next op = none)
    (defined : access isa i (regs (rs1 i)) (regs (rs2 i)) op = some acc)
    (fits : acc.addr.toNat % acc.bytes = 0 ∧ space.data acc.addr acc.bytes = true) :
    (at_ memory start k regs).step space =
      some ((at_ memory start k regs).touch i acc (start + .ofNat _ (4 * (k + 1)))) := by
  obtain ⟨held, found⟩ := placed lies
  have size : length isa word = 4 := if_pos full
  have next : (at_ memory start k regs).pc + length isa word = start + .ofNat _ (4 * (k + 1)) := by
    rw [size]
    show start + .ofNat _ (4 * k) + 4 = _
    rw [BitVec.add_assoc]
    congr 1
    exact (BitVec.ofNat_add (4 * k) 4).symm
  have own : (at_ memory start k regs).regs = regs := rfl
  rw [step_of_word space (at_ memory start k regs) held found decodes, next]
  unfold perform
  rw [own, nothing, defined]
  exact if_pos fits

end Machine

/-! ## Registers -/

section Registers

variable {isa : Isa} {i : Instruction} {regs : BitVec 5 → Word isa} (zero : regs 0 = 0)

include zero

theorem writeRd_some (value : Word isa) (target : Option (Word isa)) (other : rd i ≠ 0) :
    writeRd i ⟨some value, target⟩ regs = Function.update regs (rd i) value := by
  funext r
  unfold writeRd
  rw [Function.update_apply]
  by_cases none : r = 0
  · have apart : r ≠ rd i := fun same => other (same.symm.trans none)
    rw [if_pos none, if_neg apart, none, zero]
  · rw [if_neg none]

theorem writeRd_none (target : Option (Word isa)) : writeRd i ⟨none, target⟩ regs = regs := by
  funext r
  unfold writeRd
  by_cases none : r = 0
  · rw [if_pos none, none, zero]
  · rw [if_neg none]

theorem writeRd_zero (e : Effect isa) (ignored : rd i = 0) : writeRd i e regs = regs := by
  rw [writeRd_nowhere ignored]
  funext r
  by_cases none : r = 0
  · rw [if_pos none, none, zero]
  · exact if_neg none

end Registers

theorem add_eq {w : Nat} (a b : BitVec w) : add a b = a + b := (TwosComplement.add_eq a b).symm

/-- An instruction `li` of a program. -/
theorem Machine.Placed.li {isa : Isa} {space : Space} {memory : ByteMemory} {start : Word isa}
    {program : List Instruction} {regs : BitVec 5 → Word isa} (placed : Placed space memory start program)
    (zero : regs 0 = 0) {k : Nat} {word : Instruction} (lies : program[k]? = some word)
    (full : isFull word = true) (decodes : decode isa word = some (.addi, word))
    (target : rd word ≠ 0) (source : rs1 word = 0) :
    (Machine.at_ memory start k regs).step space = some (Machine.at_ memory start (k + 1)
      (Function.update regs (rd word) ((immI word).signExtend isa.xlen))) := by
  rw [placed.step lies full decodes rfl, writeRd_some zero _ _ target, add_eq, source, zero]
  have sum : (0 : Word isa) + (immI word).signExtend isa.xlen = (immI word).signExtend isa.xlen :=
    BitVec.zero_add _
  exact congrArg (fun value => some (Machine.mk _ (Function.update regs (rd word) value) memory)) sum

end RiscvVp.Spec
