/-
# RiscvVp.Iss.Listing -- assembly in the memory

A line of assembly says what instruction there is and what its fields are.  A listing lies in the memory
wherever the words there are these instructions, of 16 or of 32 bits as the assembler liked.  Each
kind of line has its lemma about the step of the machine.
-/
import RiscvVp.Iss.Machine

namespace RiscvVp.Spec

set_option autoImplicit false

open Lib

/-- What is known of an instruction. -/
structure Line where
  op : Mapping
  fields : Instruction → Prop

/-- The lines from one address to another; `free` are the addresses that may hold them. -/
inductive Listed {isa : Isa} (space : Space) (memory : ByteMemory) (free : BitVec 64 → Prop) :
    Word isa → List Line → Word isa → Prop where
  | nil {pc : Word isa} : Listed space memory free pc [] pc
  | cons {pc stop : Word isa} {line : Line} {lines : List Line} {word i : Instruction}
      (held : space.code (location pc) = true) (lies : memory.read (location pc) 4 = word)
      (decodes : decode isa word = some (line.op, i)) (fields : line.fields i)
      (apart : ∀ k < 4, free (location pc + .ofNat 64 k))
      (rest : Listed space memory free (pc + length isa word) lines stop) :
      Listed space memory free pc (line :: lines) stop

theorem Machine.Placed.left {isa : Isa} {space : Space} {memory : ByteMemory} {start : Word isa}
    {first rest : List Instruction} (placed : Placed space memory start (first ++ rest)) :
    Placed space memory start first := by
  intro k word lies
  exact placed (List.getElem?_append_left (List.getElem?_eq_some_iff.mp lies).1 |>.trans lies)

theorem Machine.Placed.right {isa : Isa} {space : Space} {memory : ByteMemory} {start : Word isa}
    {first rest : List Instruction} (placed : Placed space memory start (first ++ rest)) :
    Placed space memory (start + .ofNat _ (4 * first.length)) rest := by
  intro k word lies
  have found : (first ++ rest)[first.length + k]? = some word := by
    rw [List.getElem?_append_right (Nat.le_add_right ..), Nat.add_sub_cancel_left, lies]
  have shift : start + .ofNat _ (4 * first.length) + .ofNat _ (4 * k) =
      start + .ofNat _ (4 * (first.length + k)) := by
    rw [BitVec.add_assoc, ← BitVec.ofNat_add, Nat.mul_add]
  rw [shift]
  exact placed found

namespace Listed

variable {isa : Isa} {space : Space} {memory memory' : ByteMemory} {free : BitVec 64 → Prop}
  {pc stop : Word isa} {line : Line} {lines more : List Line}

/-- The memory may change where no line is. -/
theorem congr (listed : Listed space memory free pc lines stop)
    (same : ∀ a, free a → memory' a = memory a) : Listed space memory' free pc lines stop := by
  induction listed with
  | nil => exact .nil
  | cons held lies decodes fields apart _ ih =>
    refine .cons held ?_ decodes fields apart ih
    rw [← lies]
    exact ByteMemory.read_congr fun k inside => same _ (apart k inside)

theorem split (listed : Listed space memory free pc (lines ++ more) stop) :
    ∃ middle, Listed space memory free pc lines middle ∧ Listed space memory free middle more stop := by
  induction lines generalizing pc with
  | nil => exact ⟨pc, .nil, listed⟩
  | cons line lines ih =>
    cases listed with
    | cons held lies decodes fields apart rest =>
      obtain ⟨middle, first, last⟩ := ih rest
      exact ⟨middle, .cons held lies decodes fields apart first, last⟩

theorem append {middle : Word isa} (first : Listed space memory free pc lines middle)
    (last : Listed space memory free middle more stop) : Listed space memory free pc (lines ++ more) stop := by
  induction first with
  | nil => exact last
  | cons held lies decodes fields apart _ ih => exact .cons held lies decodes fields apart (ih last)

/-- The words of a program, when they are what the lines say. -/
theorem of_words {words : List Instruction}
    (each : List.Forall₂ (fun (word : Instruction) (line : Line) => isFull word = true ∧
      ∃ i, decode isa word = some (line.op, i) ∧ line.fields i) words lines)
    (placed : Machine.Placed space memory pc words)
    (apart : ∀ k < words.length, ∀ j < 4, free (location (pc + .ofNat _ (4 * k)) + .ofNat 64 j)) :
    Listed space memory free pc lines (pc + .ofNat _ (4 * words.length)) := by
  induction each generalizing pc with
  | nil =>
    have here : pc + .ofNat _ (4 * ([] : List Instruction).length) = pc := BitVec.add_zero pc
    rw [here]
    exact .nil
  | @cons word line words lines first _ ih =>
    obtain ⟨full, i, decodes, fields⟩ := first
    have size : length isa word = .ofNat _ 4 := if_pos full
    have shift (k : Nat) : pc + length isa word + .ofNat _ (4 * k) = pc + .ofNat _ (4 * (k + 1)) := by
      rw [size, BitVec.add_assoc, ← BitVec.ofNat_add]
      congr 2
      omega
    have here : pc + .ofNat _ (4 * 0) = pc := BitVec.add_zero pc
    obtain ⟨held, lies⟩ := placed (k := 0) rfl
    rw [here] at held lies
    have bytes := apart 0 (Nat.zero_lt_succ _)
    rw [here] at bytes
    have placed' : Machine.Placed space memory (pc + length isa word) words := by
      intro k w found
      rw [shift k]
      exact placed (k := k + 1) found
    have rest := ih placed' fun k inside => by
      rw [shift k]
      exact apart (k + 1) (Nat.succ_lt_succ inside)
    rw [shift] at rest
    exact .cons held lies decodes fields bytes rest

end Listed

/-! ## Lines -/

namespace Line

def sw (src base : BitVec 5) (offset : BitVec 12) : Line :=
  ⟨.sw, fun i => rs2 i = src ∧ rs1 i = base ∧ immS i = offset⟩

def lw (dst base : BitVec 5) (offset : BitVec 12) : Line :=
  ⟨.lw, fun i => rd i = dst ∧ rs1 i = base ∧ immI i = offset⟩

def auipc (dst : BitVec 5) (imm : BitVec 32) : Line := ⟨.auipc, fun i => rd i = dst ∧ immU i = imm⟩

def addi (dst src : BitVec 5) (imm : BitVec 12) : Line :=
  ⟨.addi, fun i => rd i = dst ∧ rs1 i = src ∧ immI i = imm⟩

/-- `jr`, and `ret` where the register is `ra`. -/
def jr (src : BitVec 5) : Line := ⟨.jalr, fun i => rd i = 0 ∧ rs1 i = src ∧ immI i = 0⟩

end Line

section Steps

variable {space : Space} {memory : ByteMemory} {free : BitVec 64 → Prop} {pc stop : Word .rv32}
  {regs : BitVec 5 → Word .rv32} {lines : List Line}

/-- A word can be touched at an address. -/
def Fits (space : Space) (address : Word .rv32) : Prop :=
  (location address).toNat % 4 = 0 ∧ space.data (location address) 4 = true

instance (address : Word .rv32) : Decidable (Fits space address) := inferInstanceAs (Decidable (_ ∧ _))

theorem Machine.perform_touch {m : Machine .rv32} {next : Word .rv32} {op : Mapping} {i : Instruction}
    {acc : Access .rv32} (nothing : effect .rv32 i (m.regs (rs1 i)) (m.regs (rs2 i)) m.pc next op = none)
    (defined : access .rv32 i (m.regs (rs1 i)) (m.regs (rs2 i)) op = some acc)
    (fits : acc.addr.toNat % acc.bytes = 0 ∧ space.data acc.addr acc.bytes = true) :
    m.perform space next op i = some (m.touch i acc next) := by
  unfold perform
  rw [nothing, defined]
  exact if_pos fits

theorem Machine.perform_computes {m : Machine .rv32} {next : Word .rv32} {op : Mapping} {i : Instruction}
    {e : Effect .rv32} (defined : effect .rv32 i (m.regs (rs1 i)) (m.regs (rs2 i)) m.pc next op = some e) :
    m.perform space next op i = some (m.transfer i e next) := by
  unfold perform
  rw [defined]

/-- The first line is the next instruction. -/
theorem Listed.first {line : Line} (listed : Listed space memory free pc (line :: lines) stop)
    (regs : BitVec 5 → Word .rv32) :
    ∃ i next, line.fields i ∧ Listed space memory free next lines stop ∧
      (Machine.mk pc regs memory).step space = (Machine.mk pc regs memory).perform space next line.op i := by
  cases listed with
  | cons held lies decodes fields _ rest =>
    exact ⟨_, _, fields, rest, Machine.step_of_word space (Machine.mk pc regs memory) held lies decodes⟩

variable (zero : regs 0 = 0)

include zero

theorem Listed.sw {src base : BitVec 5} {offset : BitVec 12}
    (listed : Listed space memory free pc (.sw src base offset :: lines) stop)
    (fits : Fits space (regs base + offset.signExtend 32)) :
    ∃ next, Listed space memory free next lines stop ∧ (Machine.mk pc regs memory).step space =
      some ⟨next, regs, memory.write (location (regs base + offset.signExtend 32)) 4 (regs src)⟩ := by
  obtain ⟨i, next, ⟨rfl, rfl, rfl⟩, rest, stepped⟩ := listed.first regs
  refine ⟨next, rest, stepped.trans ?_⟩
  rw [← add_eq] at fits ⊢
  have touched : (Machine.mk pc regs memory).perform space next .sw i = _ :=
    Machine.perform_touch rfl rfl fits
  rw [show (Line.sw (rs2 i) (rs1 i) (immS i)).op = .sw from rfl, touched]
  unfold Machine.touch
  rw [writeRd_none zero]
  have value : (BitVec.ofNat (8 * 4) (regs (rs2 i)).toNat : BitVec (8 * 4)) = regs (rs2 i) :=
    BitVec.ofNat_toNat 32 _ |>.trans (BitVec.setWidth_eq _)
  exact congrArg (fun value => some (Machine.mk next regs (memory.write _ 4 value))) value

theorem Listed.lw {dst base : BitVec 5} {offset : BitVec 12}
    (listed : Listed space memory free pc (.lw dst base offset :: lines) stop) (wanted : dst ≠ 0)
    (fits : Fits space (regs base + offset.signExtend 32)) :
    ∃ next, Listed space memory free next lines stop ∧ (Machine.mk pc regs memory).step space =
      some ⟨next, Function.update regs dst (memory.read (location (regs base + offset.signExtend 32)) 4),
        memory⟩ := by
  obtain ⟨i, next, ⟨rfl, rfl, rfl⟩, rest, stepped⟩ := listed.first regs
  refine ⟨next, rest, stepped.trans ?_⟩
  rw [← add_eq] at fits ⊢
  have touched : (Machine.mk pc regs memory).perform space next .lw i = _ :=
    Machine.perform_touch rfl rfl fits
  rw [show (Line.lw (rd i) (rs1 i) (immI i)).op = .lw from rfl, touched]
  unfold Machine.touch
  rw [writeRd_some zero _ _ wanted]
  have value : ∀ data : BitVec (8 * 4), (BitVec.ofInt 32 data.toInt : Word .rv32) = data :=
    fun _ => BitVec.ofInt_toInt
  exact congrArg (fun value => some (Machine.mk next (Function.update regs (rd i) value) memory)) (value _)

/-- A line that writes a register. -/
theorem Listed.writes {line : Line} {dst : BitVec 5} {value : Word .rv32}
    (listed : Listed space memory free pc (line :: lines) stop) (wanted : dst ≠ 0)
    (defined : ∀ i next, line.fields i → rd i = dst ∧
      effect .rv32 i (regs (rs1 i)) (regs (rs2 i)) pc next line.op = some ⟨some value, none⟩) :
    ∃ next, Listed space memory free next lines stop ∧ (Machine.mk pc regs memory).step space =
      some ⟨next, Function.update regs dst value, memory⟩ := by
  obtain ⟨i, next, fields, rest, stepped⟩ := listed.first regs
  obtain ⟨rfl, effective⟩ := defined i next fields
  have written : (Machine.mk pc regs memory).transfer i ⟨some value, none⟩ next =
      ⟨next, Function.update regs (rd i) value, memory⟩ :=
    congrArg (fun regs => Machine.mk next regs memory) (writeRd_some zero value none wanted)
  have performed : (Machine.mk pc regs memory).perform space next line.op i = some _ :=
    Machine.perform_computes effective
  rw [performed, written] at stepped
  exact ⟨next, rest, stepped⟩

theorem Listed.auipc {dst : BitVec 5} {imm : BitVec 32}
    (listed : Listed space memory free pc (.auipc dst imm :: lines) stop) (wanted : dst ≠ 0) :
    ∃ next, Listed space memory free next lines stop ∧ (Machine.mk pc regs memory).step space =
      some ⟨next, Function.update regs dst (pc + imm), memory⟩ := by
  refine listed.writes zero wanted fun i next fields => ⟨fields.1, ?_⟩
  obtain ⟨-, rfl⟩ := fields
  rw [← add_eq]
  exact congrArg (fun imm => some (Effect.mk (some (add pc imm)) none)) (BitVec.signExtend_eq (immU i))

theorem Listed.addi {dst src : BitVec 5} {imm : BitVec 12}
    (listed : Listed space memory free pc (.addi dst src imm :: lines) stop) (wanted : dst ≠ 0) :
    ∃ next, Listed space memory free next lines stop ∧ (Machine.mk pc regs memory).step space =
      some ⟨next, Function.update regs dst (regs src + imm.signExtend 32), memory⟩ := by
  refine listed.writes zero wanted fun i next fields => ⟨fields.1, ?_⟩
  obtain ⟨-, rfl, rfl⟩ := fields
  rw [← add_eq]
  rfl

theorem Listed.jr {src : BitVec 5} (listed : Listed space memory free pc (.jr src :: lines) stop) :
    (Machine.mk pc regs memory).step space = some ⟨regs src &&& ~~~1, regs, memory⟩ := by
  obtain ⟨i, next, ⟨link, rfl, imm⟩, -, stepped⟩ := listed.first regs
  have target : add (regs (rs1 i)) ((immI i).signExtend 32) = regs (rs1 i) := by
    rw [add_eq, imm]
    exact BitVec.add_zero _
  have jumps : effect .rv32 i (regs (rs1 i)) (regs (rs2 i)) pc next .jalr =
      some ⟨some next, some (regs (rs1 i) &&& ~~~1)⟩ := by
    rw [← congrArg (· &&& ~~~1) target]
    rfl
  refine stepped.trans ((Machine.perform_computes jumps).trans ?_)
  unfold Machine.transfer
  rw [writeRd_zero zero _ link]
  rfl

end Steps

end RiscvVp.Spec
