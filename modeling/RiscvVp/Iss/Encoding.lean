/-
# RiscvVp.Iss.Encoding -- how the ISA encodes its instructions

The encodings of the instructions in `Spec.effect` and `Spec.access`, as the ISA lists them: by
opcode and function fields, and a compressed halfword by the instruction that it stands for.  The
table of the source has no part in them, nor have its decoders.

What the simulator decodes is the same instruction (`decoded_of_decode`), but in two forms: C.NOP is
carried out as an ADD, and C.ADDIW with the word of an ADDI.  A third one is left out: the HINT C.ADD
with destination `x0`, which the simulator takes for C.EBREAK.
-/
import RiscvVp.Instr.Expansion
import RiscvVp.Instr.RvcDecode
import RiscvVp.Iss.IntSpec
import RiscvVp.Iss.Run

namespace RiscvVp.Spec

set_option autoImplicit false

open Lib

/-! ## Thirty-two bits -/

namespace Major

def load : BitVec 7 := 0b0000011
def miscMem : BitVec 7 := 0b0001111
def opImm : BitVec 7 := 0b0010011
def auipc : BitVec 7 := 0b0010111
def opImm32 : BitVec 7 := 0b0011011
def store : BitVec 7 := 0b0100011
def amo : BitVec 7 := 0b0101111
def op : BitVec 7 := 0b0110011
def lui : BitVec 7 := 0b0110111
def op32 : BitVec 7 := 0b0111011
def branch : BitVec 7 := 0b1100011
def jalr : BitVec 7 := 0b1100111
def jal : BitVec 7 := 0b1101111

end Major

/-- The fields that tell an instruction from the others. -/
inductive Pattern where
  | opcode (opcode : BitVec 7)
  | funct3 (funct3 : BitVec 3) (opcode : BitVec 7)
  | funct5 (funct5 : BitVec 5) (funct3 : BitVec 3) (opcode : BitVec 7)
  | funct6 (funct6 : BitVec 6) (funct3 : BitVec 3) (opcode : BitVec 7)
  | funct7 (funct7 : BitVec 7) (funct3 : BitVec 3) (opcode : BitVec 7)

namespace Pattern

def Fits (i : Instruction) : Pattern → Prop
  | .opcode o => i.extractLsb' 0 7 = o
  | .funct3 f o => i.extractLsb' 12 3 = f ∧ i.extractLsb' 0 7 = o
  | .funct5 t f o => i.extractLsb' 27 5 = t ∧ i.extractLsb' 12 3 = f ∧ i.extractLsb' 0 7 = o
  | .funct6 t f o => i.extractLsb' 26 6 = t ∧ i.extractLsb' 12 3 = f ∧ i.extractLsb' 0 7 = o
  | .funct7 t f o => i.extractLsb' 25 7 = t ∧ i.extractLsb' 12 3 = f ∧ i.extractLsb' 0 7 = o

instance (i : Instruction) (p : Pattern) : Decidable (p.Fits i) := by
  cases p <;> unfold Fits <;> infer_instance

/-- The bits that are fixed, and their values. -/
def mask : Pattern → BitVec 32
  | .opcode _ => 0x7f
  | .funct3 .. => 0x707f
  | .funct5 .. => 0xf800707f
  | .funct6 .. => 0xfc00707f
  | .funct7 .. => 0xfe00707f

def bits : Pattern → BitVec 32
  | .opcode o => 0#25 ++ o
  | .funct3 f o => 0#17 ++ f ++ 0#5 ++ o
  | .funct5 t f o => t ++ 0#12 ++ f ++ 0#5 ++ o
  | .funct6 t f o => t ++ 0#11 ++ f ++ 0#5 ++ o
  | .funct7 t f o => t ++ 0#10 ++ f ++ 0#5 ++ o

theorem and_mask {i : Instruction} {p : Pattern} (fits : p.Fits i) : i &&& p.mask = p.bits := by
  cases p with
  | opcode o =>
    have bits : ∀ i : BitVec 32, i &&& 0x7f = 0#25 ++ i.extractLsb' 0 7 := OrHom.ext (by decide)
    subst fits
    exact bits i
  | funct3 f o =>
    have bits : ∀ i : BitVec 32, i &&& 0x707f = 0#17 ++ i.extractLsb' 12 3 ++ 0#5 ++ i.extractLsb' 0 7 :=
      OrHom.ext (by decide)
    obtain ⟨rfl, rfl⟩ := fits
    exact bits i
  | funct5 t f o =>
    have bits : ∀ i : BitVec 32, i &&& 0xf800707f =
        i.extractLsb' 27 5 ++ 0#12 ++ i.extractLsb' 12 3 ++ 0#5 ++ i.extractLsb' 0 7 := OrHom.ext (by decide)
    obtain ⟨rfl, rfl, rfl⟩ := fits
    exact bits i
  | funct6 t f o =>
    have bits : ∀ i : BitVec 32, i &&& 0xfc00707f =
        i.extractLsb' 26 6 ++ 0#11 ++ i.extractLsb' 12 3 ++ 0#5 ++ i.extractLsb' 0 7 := OrHom.ext (by decide)
    obtain ⟨rfl, rfl, rfl⟩ := fits
    exact bits i
  | funct7 t f o =>
    have bits : ∀ i : BitVec 32, i &&& 0xfe00707f =
        i.extractLsb' 25 7 ++ 0#10 ++ i.extractLsb' 12 3 ++ 0#5 ++ i.extractLsb' 0 7 := OrHom.ext (by decide)
    obtain ⟨rfl, rfl, rfl⟩ := fits
    exact bits i

end Pattern

/-- The instructions of RV32IMA, of the privileged ones and the pair of LR and SC none. -/
def base : List (Mapping × Pattern) :=
  [ (.lui, .opcode Major.lui), (.auipc, .opcode Major.auipc), (.jal, .opcode Major.jal),
    (.jalr, .funct3 0b000 Major.jalr),
    (.beq, .funct3 0b000 Major.branch), (.bne, .funct3 0b001 Major.branch),
    (.blt, .funct3 0b100 Major.branch), (.bge, .funct3 0b101 Major.branch),
    (.bltu, .funct3 0b110 Major.branch), (.bgeu, .funct3 0b111 Major.branch),
    (.lb, .funct3 0b000 Major.load), (.lh, .funct3 0b001 Major.load), (.lw, .funct3 0b010 Major.load),
    (.lbu, .funct3 0b100 Major.load), (.lhu, .funct3 0b101 Major.load),
    (.sb, .funct3 0b000 Major.store), (.sh, .funct3 0b001 Major.store), (.sw, .funct3 0b010 Major.store),
    (.addi, .funct3 0b000 Major.opImm), (.slti, .funct3 0b010 Major.opImm),
    (.sltiu, .funct3 0b011 Major.opImm), (.xori, .funct3 0b100 Major.opImm),
    (.ori, .funct3 0b110 Major.opImm), (.andi, .funct3 0b111 Major.opImm),
    (.add, .funct7 0b0000000 0b000 Major.op), (.sub, .funct7 0b0100000 0b000 Major.op),
    (.sll, .funct7 0b0000000 0b001 Major.op), (.slt, .funct7 0b0000000 0b010 Major.op),
    (.sltu, .funct7 0b0000000 0b011 Major.op), (.xor, .funct7 0b0000000 0b100 Major.op),
    (.srl, .funct7 0b0000000 0b101 Major.op), (.sra, .funct7 0b0100000 0b101 Major.op),
    (.or, .funct7 0b0000000 0b110 Major.op), (.and, .funct7 0b0000000 0b111 Major.op),
    (.fence, .funct3 0b000 Major.miscMem), (.fenceI, .funct3 0b001 Major.miscMem),
    (.mul, .funct7 0b0000001 0b000 Major.op), (.mulh, .funct7 0b0000001 0b001 Major.op),
    (.mulhsu, .funct7 0b0000001 0b010 Major.op), (.mulhu, .funct7 0b0000001 0b011 Major.op),
    (.div, .funct7 0b0000001 0b100 Major.op), (.divu, .funct7 0b0000001 0b101 Major.op),
    (.rem, .funct7 0b0000001 0b110 Major.op), (.remu, .funct7 0b0000001 0b111 Major.op),
    (.amoswapW, .funct5 0b00001 0b010 Major.amo), (.amoaddW, .funct5 0b00000 0b010 Major.amo),
    (.amoxorW, .funct5 0b00100 0b010 Major.amo), (.amoandW, .funct5 0b01100 0b010 Major.amo),
    (.amoorW, .funct5 0b01000 0b010 Major.amo), (.amominW, .funct5 0b10000 0b010 Major.amo),
    (.amomaxW, .funct5 0b10100 0b010 Major.amo), (.amominuW, .funct5 0b11000 0b010 Major.amo),
    (.amomaxuW, .funct5 0b11100 0b010 Major.amo) ]

/-- What RV64 adds. -/
def added : List (Mapping × Pattern) :=
  [ (.lwu, .funct3 0b110 Major.load), (.ld, .funct3 0b011 Major.load), (.sd, .funct3 0b011 Major.store),
    (.addiw, .funct3 0b000 Major.opImm32), (.slliw, .funct7 0b0000000 0b001 Major.opImm32),
    (.srliw, .funct7 0b0000000 0b101 Major.opImm32), (.sraiw, .funct7 0b0100000 0b101 Major.opImm32),
    (.addw, .funct7 0b0000000 0b000 Major.op32), (.subw, .funct7 0b0100000 0b000 Major.op32),
    (.sllw, .funct7 0b0000000 0b001 Major.op32), (.srlw, .funct7 0b0000000 0b101 Major.op32),
    (.sraw, .funct7 0b0100000 0b101 Major.op32),
    (.mulw, .funct7 0b0000001 0b000 Major.op32), (.divw, .funct7 0b0000001 0b100 Major.op32),
    (.divuw, .funct7 0b0000001 0b101 Major.op32), (.remw, .funct7 0b0000001 0b110 Major.op32),
    (.remuw, .funct7 0b0000001 0b111 Major.op32),
    (.amoswapD, .funct5 0b00001 0b011 Major.amo), (.amoaddD, .funct5 0b00000 0b011 Major.amo),
    (.amoxorD, .funct5 0b00100 0b011 Major.amo), (.amoandD, .funct5 0b01100 0b011 Major.amo),
    (.amoorD, .funct5 0b01000 0b011 Major.amo), (.amominD, .funct5 0b10000 0b011 Major.amo),
    (.amomaxD, .funct5 0b10100 0b011 Major.amo), (.amominuD, .funct5 0b11000 0b011 Major.amo),
    (.amomaxuD, .funct5 0b11100 0b011 Major.amo) ]

/-- The amount of a shift has five bits on RV32 and six on RV64. -/
def patterns : Isa → List (Mapping × Pattern)
  | .rv32 =>
      [ (.slli, .funct7 0b0000000 0b001 Major.opImm), (.srli, .funct7 0b0000000 0b101 Major.opImm),
        (.srai, .funct7 0b0100000 0b101 Major.opImm) ] ++ base
  | .rv64 =>
      [ (.slli, .funct6 0b000000 0b001 Major.opImm), (.srli, .funct6 0b000000 0b101 Major.opImm),
        (.srai, .funct6 0b010000 0b101 Major.opImm) ] ++ base ++ added

/-- The instruction that a word of 32 bits is. -/
def name (isa : Isa) (i : Instruction) : Option Mapping :=
  ((patterns isa).find? fun entry => entry.2.Fits i).map Prod.fst

theorem patterns_table (isa : Isa) : ∀ entry ∈ patterns isa, entry.1 ≠ .undef ∧
    entry.1.tableMask isa.arch = entry.2.mask ∧ entry.1.encoding = entry.2.bits := by
  cases isa <;> decide

/-- The decoder's nested switch answers the same. -/
theorem decodeNormal_of_name {isa : Isa} {i : Instruction} {op : Mapping} (named : name isa i = some op) :
    i.decodeNormal isa.arch = op := by
  obtain ⟨entry, found, rfl⟩ := Option.map_eq_some_iff.mp named
  have fits : entry.2.Fits i := by simpa using List.find?_some found
  obtain ⟨defined, mask, bits⟩ := patterns_table isa entry (List.mem_of_find?_eq_some found)
  exact Instruction.decodeNormal_of_matches ⟨defined, by rw [mask, bits, Pattern.and_mask fits]⟩

/-! ## Formats -/

section Formats

variable (imm rs2 rs1 rd : BitVec 32)

def rType (funct7 : BitVec 7) (funct3 : BitVec 3) (opcode : BitVec 7) : Instruction :=
  funct7 ++ rs2.setWidth 5 ++ rs1.setWidth 5 ++ funct3 ++ rd.setWidth 5 ++ opcode

def iType (funct3 : BitVec 3) (opcode : BitVec 7) : Instruction :=
  imm.setWidth 12 ++ rs1.setWidth 5 ++ funct3 ++ rd.setWidth 5 ++ opcode

def sType (funct3 : BitVec 3) (opcode : BitVec 7) : Instruction :=
  imm.extractLsb' 5 7 ++ rs2.setWidth 5 ++ rs1.setWidth 5 ++ funct3 ++ imm.extractLsb' 0 5 ++ opcode

def bType (funct3 : BitVec 3) : Instruction :=
  imm.extractLsb' 12 1 ++ imm.extractLsb' 5 6 ++ rs2.setWidth 5 ++ rs1.setWidth 5 ++ funct3 ++
    imm.extractLsb' 1 4 ++ imm.extractLsb' 11 1 ++ Major.branch

def uType (opcode : BitVec 7) : Instruction := imm.extractLsb' 12 20 ++ rd.setWidth 5 ++ opcode

def jType : Instruction :=
  imm.extractLsb' 20 1 ++ imm.extractLsb' 1 10 ++ imm.extractLsb' 11 1 ++ imm.extractLsb' 12 8 ++
    rd.setWidth 5 ++ Major.jal

/-- The amount of a shift lies below six bits of the function. -/
def shiftType (funct6 : BitVec 6) (funct3 : BitVec 3) : Instruction :=
  funct6 ++ imm.setWidth 6 ++ rs1.setWidth 5 ++ funct3 ++ rd.setWidth 5 ++ Major.opImm

end Formats

/-! ## Halfwords

The floating-point loads and stores and C.EBREAK are none of these instructions. -/

section Halfwords

variable (arch : Architecture) (h : BitVec 16)

open Rvc (unlessReserved)

def expansion0 : Option Instruction :=
  switch (Rvc.funct3 h)
    [ -- C.ADDI4SPN, C.LW, C.LD
     (0b000, unlessReserved (Rvc.uimmAddi4spn h = 0)
        (iType (Rvc.uimmAddi4spn h) 2 (Rvc.rs2Short h) 0b000 Major.opImm)),
     (0b010, some (iType (Rvc.uimmWord h) (Rvc.rs1Short h) (Rvc.rs2Short h) 0b010 Major.load)),
     (0b011, unlessReserved (arch = .rv32)
        (iType (Rvc.uimmDouble h) (Rvc.rs1Short h) (Rvc.rs2Short h) 0b011 Major.load)),
      -- C.SW, C.SD
     (0b110, some (sType (Rvc.uimmWord h) (Rvc.rs2Short h) (Rvc.rs1Short h) 0b010 Major.store)),
     (0b111, unlessReserved (arch = .rv32)
        (sType (Rvc.uimmDouble h) (Rvc.rs2Short h) (Rvc.rs1Short h) 0b011 Major.store))]
    none

/-- C.SUB, C.XOR, C.OR and C.AND, and with bit 12 set C.SUBW and C.ADDW of RV64. -/
def expansionRegister : Option Instruction :=
  let rType := rType (Rvc.rs2Short h) (Rvc.rs1Short h) (Rvc.rs1Short h)
  if Rvc.bits h 12 12 = 0 then
    switch (Rvc.bits h 6 5)
      [(0b00, some (rType 0b0100000 0b000 Major.op)), (0b01, some (rType 0b0000000 0b100 Major.op)),
       (0b10, some (rType 0b0000000 0b110 Major.op)), (0b11, some (rType 0b0000000 0b111 Major.op))]
      none
  else
    switch (Rvc.bits h 6 5)
      [(0b00, unlessReserved (arch = .rv32) (rType 0b0100000 0b000 Major.op32)),
       (0b01, unlessReserved (arch = .rv32) (rType 0b0000000 0b000 Major.op32))]
      none

def expansion1 : Option Instruction :=
  switch (Rvc.funct3 h)
    [ -- C.NOP, C.ADDI
     (0b000, some (iType (Rvc.imm6 h) (Rvc.rd h) (Rvc.rd h) 0b000 Major.opImm)),
     -- C.JAL on RV32, C.ADDIW on RV64
     (0b001,
        if arch = .rv32 then some (jType (Rvc.immJump h) 1)
        else unlessReserved (Rvc.rd h = 0) (iType (Rvc.imm6 h) (Rvc.rd h) (Rvc.rd h) 0b000 Major.opImm32)),
     -- C.LI
     (0b010, some (iType (Rvc.imm6 h) 0 (Rvc.rd h) 0b000 Major.opImm)),
     -- C.ADDI16SP, C.LUI
     (0b011,
        if Rvc.rd h = 2 then
          unlessReserved (Rvc.immAddi16sp h = 0) (iType (Rvc.immAddi16sp h) 2 2 0b000 Major.opImm)
        else unlessReserved (Rvc.immLui h = 0) (uType (Rvc.immLui h) (Rvc.rd h) Major.lui)),
     (0b100, switch (Rvc.bits h 11 10)
        [ -- C.SRLI, C.SRAI, C.ANDI
         (0b00, unlessReserved (arch = .rv32 ∧ Rvc.bits h 12 12 = 1)
            (shiftType (Rvc.shamt h) (Rvc.rs1Short h) (Rvc.rs1Short h) 0b000000 0b101)),
         (0b01, unlessReserved (arch = .rv32 ∧ Rvc.bits h 12 12 = 1)
            (shiftType (Rvc.shamt h) (Rvc.rs1Short h) (Rvc.rs1Short h) 0b010000 0b101)),
         (0b10, some (iType (Rvc.imm6 h) (Rvc.rs1Short h) (Rvc.rs1Short h) 0b111 Major.opImm)),
         (0b11, expansionRegister arch h)]
        none),
     -- C.J, C.BEQZ, C.BNEZ
     (0b101, some (jType (Rvc.immJump h) 0)),
     (0b110, some (bType (Rvc.immBranch h) 0 (Rvc.rs1Short h) 0b000)),
     (0b111, some (bType (Rvc.immBranch h) 0 (Rvc.rs1Short h) 0b001))]
    none

def expansion2 : Option Instruction :=
  switch (Rvc.funct3 h)
    [ -- C.SLLI
     (0b000, unlessReserved (arch = .rv32 ∧ Rvc.bits h 12 12 = 1)
        (shiftType (Rvc.shamt h) (Rvc.rd h) (Rvc.rd h) 0b000000 0b001)),
     -- C.LWSP, C.LDSP
     (0b010, unlessReserved (Rvc.rd h = 0)
        (iType (Rvc.uimmWordLoadSp h) 2 (Rvc.rd h) 0b010 Major.load)),
     (0b011, unlessReserved (arch = .rv32 ∨ Rvc.rd h = 0)
        (iType (Rvc.uimmDoubleLoadSp h) 2 (Rvc.rd h) 0b011 Major.load)),
     (0b100,
        if Rvc.bits h 12 12 = 0 then
          -- C.JR, C.MV
          if Rvc.rs2 h = 0 then unlessReserved (Rvc.rd h = 0) (iType 0 (Rvc.rd h) 0 0b000 Major.jalr)
          else some (rType (Rvc.rs2 h) 0 (Rvc.rd h) 0b0000000 0b000 Major.op)
        else
          -- C.JALR, C.ADD
          if Rvc.rs2 h = 0 then unlessReserved (Rvc.rd h = 0) (iType 0 (Rvc.rd h) 1 0b000 Major.jalr)
          else some (rType (Rvc.rs2 h) (Rvc.rd h) (Rvc.rd h) 0b0000000 0b000 Major.op)),
     -- C.SWSP, C.SDSP
     (0b110, some (sType (Rvc.uimmWordStoreSp h) (Rvc.rs2 h) 2 0b010 Major.store)),
     (0b111, unlessReserved (arch = .rv32)
        (sType (Rvc.uimmDoubleStoreSp h) (Rvc.rs2 h) 2 0b011 Major.store))]
    none

/-- The instruction that a halfword stands for. -/
def expansion : Option Instruction :=
  switch (Rvc.quadrant h) [(0, expansion0 arch h), (1, expansion1 arch h), (2, expansion2 arch h)] none

/-- The HINT C.ADD with destination `x0`. -/
def IsHint : Prop :=
  Rvc.quadrant h = 2 ∧ Rvc.funct3 h = 0b100 ∧ Rvc.bits h 12 12 = 1 ∧ Rvc.rd h = 0 ∧ Rvc.rs2 h ≠ 0

instance : Decidable (IsHint h) := inferInstanceAs (Decidable (_ ∧ _))

end Halfwords

/-! ## Words -/

/-- An instruction of 32 bits begins with two ones. -/
def isFull (word : Instruction) : Bool := word.extractLsb' 0 2 = 0b11

/-- The instruction at the beginning of a word, with 32 bits; the HINT is none. -/
def decode (isa : Isa) (word : Instruction) : Option (Mapping × Instruction) :=
  let whole :=
    if isFull word then some word
    else if IsHint (word.setWidth 16) then none
    else expansion isa.arch (word.setWidth 16)
  whole.bind fun i => (name isa i).map (·, i)

/-- The bytes that it takes. -/
def length (isa : Isa) (word : Instruction) : Word isa := if isFull word then 4 else 2

/-! ## What the simulator decodes -/

/-- An opcode and a word of the simulator, and what they are for. -/
inductive Alike : Mapping → Instruction → Mapping → Instruction → Prop where
  | same (op : Mapping) (i : Instruction) : Alike op i op i
  | nop : Alike .add (InstructionFactory.add 0 0 0) .addi (iType 0 0 0 0b000 Major.opImm)
  | addiw {word i : Instruction} : word.extractLsb' 7 25 = i.extractLsb' 7 25 → Alike .addiw word .addiw i

section Formats

variable {m : Nat} {f g h : BitVec m → BitVec 32} [OrHom f] [OrHom g] [OrHom h]

instance (funct7 : BitVec 7) (funct3 : BitVec 3) (opcode : BitVec 7) :
    OrHom fun x => rType (f x) (g x) (h x) funct7 funct3 opcode := by
  unfold rType
  infer_instance

instance (funct3 : BitVec 3) (opcode : BitVec 7) :
    OrHom fun x => iType (f x) (g x) (h x) funct3 opcode := by
  unfold iType
  infer_instance

instance (funct3 : BitVec 3) (opcode : BitVec 7) :
    OrHom fun x => sType (f x) (g x) (h x) funct3 opcode := by
  unfold sType
  infer_instance

instance (funct3 : BitVec 3) : OrHom fun x => bType (f x) (g x) (h x) funct3 := by
  unfold bType
  infer_instance

instance (opcode : BitVec 7) : OrHom fun x => uType (f x) (g x) opcode := by
  unfold uType
  infer_instance

instance : OrHom fun x => jType (f x) (g x) := by
  unfold jType
  infer_instance

instance (funct6 : BitVec 6) (funct3 : BitVec 3) :
    OrHom fun x => shiftType (f x) (g x) (h x) funct6 funct3 := by
  unfold shiftType
  infer_instance

end Formats

open Instruction

section Forms

variable {arch : Architecture} {instr : Instruction}

/-- The word of a form, with the operands that the decoder takes for it. -/
def formWord (instr : Instruction) : Compressed → Option Instruction
  | .cAdd => some (rType (cRs2 instr) (cRd instr) (cRd instr) 0b0000000 0b000 Major.op)
  | .cMv => some (rType (cRs2 instr) 0 (cRd instr) 0b0000000 0b000 Major.op)
  | .cAnd => some (rType (cRs2Small instr) (cRdSmall instr) (cRdSmall instr) 0b0000000 0b111 Major.op)
  | .cOr => some (rType (cRs2Small instr) (cRdSmall instr) (cRdSmall instr) 0b0000000 0b110 Major.op)
  | .cXor => some (rType (cRs2Small instr) (cRdSmall instr) (cRdSmall instr) 0b0000000 0b100 Major.op)
  | .cSub => some (rType (cRs2Small instr) (cRdSmall instr) (cRdSmall instr) 0b0100000 0b000 Major.op)
  | .cAddw => some (rType (cRs2Small instr) (cRdSmall instr) (cRdSmall instr) 0b0000000 0b000 Major.op32)
  | .cSubw => some (rType (cRs2Small instr) (cRdSmall instr) (cRdSmall instr) 0b0100000 0b000 Major.op32)
  | .cLw => some (iType (cLwUimm instr) (cRdSmall instr) (cRs2Small instr) 0b010 Major.load)
  | .cLd => some (iType (cLdUimm instr) (cRdSmall instr) (cRs2Small instr) 0b011 Major.load)
  | .cSw => some (sType (cLwUimm instr) (cRs2Small instr) (cRdSmall instr) 0b010 Major.store)
  | .cSd => some (sType (cLdUimm instr) (cRs2Small instr) (cRdSmall instr) 0b011 Major.store)
  | .cAddi4spn => some (iType (cAddi4spnNzuimm instr) 2 (cRs2Small instr) 0b000 Major.opImm)
  | .cAddi => some (iType (cImm instr) (cRd instr) (cRd instr) 0b000 Major.opImm)
  | .cLi => some (iType (cImm instr) 0 (cRd instr) 0b000 Major.opImm)
  | .cAddi16sp => some (iType (cAddi16spNzimm instr) 2 2 0b000 Major.opImm)
  | .cLui => some (uType (cLuiNzimm instr) (cRd instr) Major.lui)
  | .cSlli => some (shiftType (cUimm instr) (cRd instr) (cRd instr) 0b000000 0b001)
  | .cSrli => some (shiftType (cUimm instr) (cRdSmall instr) (cRdSmall instr) 0b000000 0b101)
  | .cSrai => some (shiftType (cUimm instr) (cRdSmall instr) (cRdSmall instr) 0b010000 0b101)
  | .cAndi => some (iType (cImm instr) (cRdSmall instr) (cRdSmall instr) 0b111 Major.opImm)
  | .cJal => some (jType (cJalImm instr) 1)
  | .cJ => some (jType (cJalImm instr) 0)
  | .cBeqz => some (bType (cBranchImm instr) 0 (cRdSmall instr) 0b000)
  | .cBnez => some (bType (cBranchImm instr) 0 (cRdSmall instr) 0b001)
  | .cLwsp => some (iType (cLwspUimm instr) 2 (cRd instr) 0b010 Major.load)
  | .cLdsp => some (iType (cLdspUimm instr) 2 (cRd instr) 0b011 Major.load)
  | .cSwsp => some (sType (cSwspUimm instr) (cRs2 instr) 2 0b010 Major.store)
  | .cSdsp => some (sType (cSdspUimm instr) (cRs2 instr) 2 0b011 Major.store)
  | .cJr => some (iType 0 (cRd instr) 0 0b000 Major.jalr)
  | .cJalr => some (iType 0 (cRd instr) 1 0b000 Major.jalr)
  | _ => none

theorem reservedOr_word {reserved : Bool} {op : Mapping} {word i : Instruction} (same : word = i) :
    (reservedOr instr reserved (op, word)).1 = .undef ∨ (reservedOr instr reserved (op, word)).2 = i := by
  cases reserved with
  | true => exact .inl rfl
  | false => exact .inr same

/-- The factory builds the formats. -/
theorem expandCompressed_word (arch : Architecture) (instr : Instruction) {cOp : Compressed}
    {i : Instruction} (built : formWord instr cOp = some i) :
    ∃ result, expandCompressed instr cOp arch = .ok result ∧ (result.1 = .undef ∨ result.2 = i) := by
  cases cOp
  case cIllegal | cReserved | cLq | cLqsp | cSq | cSqsp | cEbreak | cNop | cAddiw | cFlw | cFld | cFsw |
      cFsd | cFlwsp | cFldsp | cFswsp | cFsdsp => cases built
  case cAddi4spn | cAddi16sp | cLui | cLwsp | cLdsp | cJr | cSlli | cSrli | cSrai =>
    cases built
    refine ⟨_, rfl, reservedOr_word ?_⟩
    revert instr
    exact OrHom.ext (by decide)
  all_goals
    cases built
    refine ⟨_, rfl, .inr ?_⟩
    revert instr
    exact OrHom.ext (by decide)

/-- The instruction that a halfword stands for is decoded, if it is one. -/
def Stands (arch : Architecture) (instr : Instruction) : Prop :=
  ∀ i, expansion arch (halfword instr) = some i → ∃ op word,
    decodeAndExpandCompressed arch instr = .ok (op, word) ∧ Alike op word (decodeNormal arch i) i

theorem stands_none (nothing : expansion arch (halfword instr) = none) : Stands arch instr := by
  intro i stands
  rw [nothing] at stands
  cases stands

theorem stands_form {cOp : Compressed} {op : Mapping} {word : Instruction}
    (form : decodeCompressed instr arch = .ok cOp)
    (expands : expandCompressed instr cOp arch = .ok (op, word))
    (spec : expansion arch (halfword instr) = formWord instr cOp) (named : op ≠ .undef) :
    Stands arch instr := by
  intro i stands
  have built : formWord instr cOp = some i := spec.symm.trans stands
  have other : cOp ≠ .cAddiw := by
    rintro rfl
    cases built
  obtain ⟨result, expands', same⟩ := expandCompressed_word arch instr built
  obtain ⟨result', expands'', carries⟩ := expandCompressed_carries arch instr other
  rw [expands] at expands' expands''
  cases expands'
  cases expands''
  obtain rfl : word = i := same.resolve_left named
  refine ⟨op, word, decodeAndExpandCompressed_ok form expands, ?_⟩
  rw [carries named]
  exact .same op word

/-- A form that the decoder and the format reserve under the same condition. -/
theorem stands_unlessReserved {cOp : Compressed} {op : Mapping} {word i : Instruction} {reserved : Bool}
    (form : decodeCompressed instr arch = .ok cOp)
    (expands : expandCompressed instr cOp arch = .ok (reservedOr instr reserved (op, word)))
    (spec : expansion arch (halfword instr) = Rvc.unlessReserved reserved i)
    (built : formWord instr cOp = some i) (named : op ≠ .undef) : Stands arch instr := by
  cases reserved with
  | true => exact stands_none spec
  | false => exact stands_form form expands (spec.trans built.symm) named

theorem stands0 (low : Rvc.bits (halfword instr) 1 0 = 0) : Stands arch instr := by
  have inQuadrant : quadrant instr = 0 := by rw [quadrant_halfword, low]; rfl
  have major := cOpcode_halfword instr
  have form := decodeCompressed.eq_1 instr arch
  have spec := expansion.eq_1 arch (halfword instr)
  simp only [inQuadrant, switch, reduceIte] at form
  simp only [Rvc.quadrant, low, switch, reduceIte, expansion0, rvc_rs1Short, rvc_rs2Short,
    rvc_uimmAddi4spn, rvc_uimmWord, rvc_uimmDouble] at spec
  obtain funct3 | funct3 | funct3 | funct3 | funct3 | funct3 | funct3 | funct3 :=
    funct3_cases (Rvc.bits (halfword instr) 15 13)
  all_goals
    rw [funct3] at major
    simp [major] at form
    simp [Rvc.funct3, funct3] at spec
  · by_cases zero : cFormat instr = 0#32
    · have reserved := cAddi4spnNzuimm_of_cFormat zero
      rw [reserved] at spec
      exact stands_none spec
    · rw [if_neg zero] at form
      exact stands_unlessReserved form rfl spec rfl (by decide)
  · exact stands_none spec
  · exact stands_form form rfl spec (by decide)
  · by_cases narrow : arch = .rv32
    · rw [decide_eq_true narrow] at spec
      exact stands_none spec
    · rw [if_neg narrow] at form
      rw [decide_eq_false narrow] at spec
      exact stands_form form rfl spec (by decide)
  · exact stands_none spec
  · exact stands_none spec
  · exact stands_form form rfl spec (by decide)
  · by_cases narrow : arch = .rv32
    · rw [decide_eq_true narrow] at spec
      exact stands_none spec
    · rw [if_neg narrow] at form
      rw [decide_eq_false narrow] at spec
      exact stands_form form rfl spec (by decide)

/-- C.SUB to C.AND, then C.SUBW and C.ADDW. -/
theorem stands_register
    (form : decodeCompressed instr arch =
      if cB12 instr = 0#32 then
        if cF2Low instr = 0#32 then .ok .cSub else if cF2Low instr = 1#32 then .ok .cXor
        else if cF2Low instr = 2#32 then .ok .cOr
        else if cF2Low instr = 3#32 then .ok .cAnd else .ok .cIllegal
      else
        if cF2Low instr = 0#32 then .ok .cSubw else if cF2Low instr = 1#32 then .ok .cAddw
        else .ok .cReserved)
    (spec : expansion arch (halfword instr) = expansionRegister arch (halfword instr)) :
    Stands arch instr := by
  have high := cB12_halfword instr
  have lower := cF2Low_halfword instr
  unfold expansionRegister at spec
  simp only [rvc_rs1Short, rvc_rs2Short, switch] at spec
  obtain bit | bit := bit_cases (Rvc.bits (halfword instr) 12 12)
  all_goals
    rw [bit] at high spec
    obtain two | two | two | two := pair_cases (Rvc.bits (halfword instr) 6 5)
  all_goals
    rw [two] at lower spec
    simp [high, lower] at form
    simp at spec
  · exact stands_form form rfl spec (by decide)
  · exact stands_form form rfl spec (by decide)
  · exact stands_form form rfl spec (by decide)
  · exact stands_form form rfl spec (by decide)
  · by_cases narrow : arch = .rv32
    · rw [decide_eq_true narrow] at spec
      exact stands_none spec
    · rw [decide_eq_false narrow] at spec
      exact stands_form form rfl spec (by decide)
  · by_cases narrow : arch = .rv32
    · rw [decide_eq_true narrow] at spec
      exact stands_none spec
    · rw [decide_eq_false narrow] at spec
      exact stands_form form rfl spec (by decide)
  · exact stands_none spec
  · exact stands_none spec

theorem stands_nop (nop : cFormat instr = 1#32) (form : decodeCompressed instr arch = .ok .cNop)
    (spec : expansion arch (halfword instr) =
      some (iType (cImm instr) (cRd instr) (cRd instr) 0b000 Major.opImm)) : Stands arch instr := by
  obtain ⟨noDestination, noImmediate⟩ := cNop_fields nop
  rw [noDestination, noImmediate] at spec
  intro i stands
  cases spec.symm.trans stands
  have named : decodeNormal arch (iType 0 0 0 0b000 Major.opImm) = .addi :=
    decodeNormal_of_fits arch (by decide) (by decide) (by decide)
  exact ⟨.add, _, decodeAndExpandCompressed_ok form rfl, named ▸ .nop⟩

/-- The word of C.ADDIW differs from an ADDIW in the opcode. -/
theorem stands_addiw (form : decodeCompressed instr arch = .ok .cAddiw)
    (spec : expansion arch (halfword instr) = Rvc.unlessReserved (cRd instr = 0)
      (iType (cImm instr) (cRd instr) (cRd instr) 0b000 Major.opImm32)) : Stands arch instr := by
  have named : ∀ instr, iType (cImm instr) (cRd instr) (cRd instr) 0b000 Major.opImm32 &&&
      Mapping.mask .addiw = Mapping.encoding .addiw := OrHom.ext (by decide)
  have fields : ∀ instr, (InstructionFactory.addi (cRd instr) (cRd instr) (cImm instr)).extractLsb' 7 25 =
      (iType (cImm instr) (cRd instr) (cRd instr) 0b000 Major.opImm32).extractLsb' 7 25 :=
    OrHom.ext (by decide)
  by_cases destination : cRd instr = 0
  · rw [decide_eq_true destination] at spec
    exact stands_none spec
  · rw [decide_eq_false destination] at spec
    intro i stands
    cases spec.symm.trans stands
    refine ⟨.addiw, _, decodeAndExpandCompressed_ok form (expandCompressed_cAddiw destination), ?_⟩
    rw [decodeNormal_of_fits arch (by decide) (by decide) (named instr)]
    exact .addiw (fields instr)

theorem stands1 (low : Rvc.bits (halfword instr) 1 0 = 1) : Stands arch instr := by
  have inQuadrant : quadrant instr = 1 := by rw [quadrant_halfword, low]; rfl
  have major := cOpcode_halfword instr
  have form := decodeCompressed.eq_1 instr arch
  have spec := expansion.eq_1 arch (halfword instr)
  simp [inQuadrant, switch] at form
  simp [Rvc.quadrant, low, switch, expansion1, rvc_rd, rvc_rs1Short,
    rvc_imm6, rvc_immJump, rvc_immAddi16sp, rvc_immLui, rvc_immBranch, rvc_shamt] at spec
  obtain funct3 | funct3 | funct3 | funct3 | funct3 | funct3 | funct3 | funct3 :=
    funct3_cases (Rvc.bits (halfword instr) 15 13)
  all_goals
    rw [funct3] at major
    simp [major] at form
    simp [Rvc.funct3, funct3] at spec
  · by_cases nop : cFormat instr = 1#32
    · rw [if_pos nop] at form
      exact stands_nop nop form spec
    · rw [if_neg nop] at form
      exact stands_form form rfl spec (by decide)
  · by_cases narrow : arch = .rv32
    · rw [if_pos narrow] at form spec
      exact stands_form form rfl spec (by decide)
    · rw [if_neg narrow] at form spec
      exact stands_addiw form spec
  · exact stands_form form rfl spec (by decide)
  · by_cases stack : cRd instr = 2#32
    · rw [if_pos stack] at form spec
      exact stands_unlessReserved form rfl spec rfl (by decide)
    · rw [if_neg stack] at form spec
      exact stands_unlessReserved form rfl spec rfl (by decide)
  · have upper := cF2High_halfword instr
    obtain two | two | two | two := pair_cases (Rvc.bits (halfword instr) 11 10)
    all_goals
      rw [two] at upper
      simp [upper] at form
      simp [two] at spec
    · rw [shift_reserved] at spec
      exact stands_unlessReserved form rfl spec rfl (by decide)
    · rw [shift_reserved] at spec
      exact stands_unlessReserved form rfl spec rfl (by decide)
    · exact stands_form form rfl spec (by decide)
    · exact stands_register form spec
  · exact stands_form form rfl spec (by decide)
  · exact stands_form form rfl spec (by decide)
  · exact stands_form form rfl spec (by decide)

theorem stands2 (plain : ¬ IsHintAdd instr) (low : Rvc.bits (halfword instr) 1 0 = 2) :
    Stands arch instr := by
  have inQuadrant : quadrant instr = 2 := by rw [quadrant_halfword, low]; rfl
  have major := cOpcode_halfword instr
  have form := decodeCompressed.eq_1 instr arch
  have spec := expansion.eq_1 arch (halfword instr)
  simp only [inQuadrant, switch, reduceIte] at form
  simp [Rvc.quadrant, low, switch, expansion2, rvc_rd, rvc_rs2,
    rvc_uimmWordLoadSp, rvc_uimmDoubleLoadSp, rvc_uimmWordStoreSp, rvc_uimmDoubleStoreSp, rvc_shamt] at spec
  obtain funct3 | funct3 | funct3 | funct3 | funct3 | funct3 | funct3 | funct3 :=
    funct3_cases (Rvc.bits (halfword instr) 15 13)
  all_goals
    rw [funct3] at major
    simp [major] at form
    simp [Rvc.funct3, funct3] at spec
  · rw [shift_reserved] at spec
    exact stands_unlessReserved form rfl spec rfl (by decide)
  · exact stands_none spec
  · exact stands_unlessReserved form rfl spec rfl (by decide)
  · by_cases narrow : arch = .rv32
    · rw [decide_eq_true narrow] at spec
      exact stands_none spec
    · rw [if_neg narrow] at form
      rw [decide_eq_false narrow] at spec
      exact stands_unlessReserved form rfl spec rfl (by decide)
  · have high := cB12_halfword instr
    obtain bit | bit := bit_cases (Rvc.bits (halfword instr) 12 12)
    all_goals
      rw [bit] at high
      simp [high] at form
      simp [bit] at spec
    · by_cases jump : cRs2 instr = 0#32
      · rw [if_pos jump] at form spec
        exact stands_unlessReserved form rfl spec rfl (by decide)
      · rw [if_neg jump] at form spec
        exact stands_form form rfl spec (by decide)
    · by_cases jump : cRs2 instr = 0#32
      · rw [if_pos jump] at form spec
        by_cases trap : cRd instr = 0#32
        · rw [decide_eq_true trap] at spec
          exact stands_none spec
        · rw [if_neg trap] at form
          rw [decide_eq_false trap] at spec
          exact stands_form form rfl spec (by decide)
      · have destination : ¬ cRd instr = 0#32 := fun hint =>
          plain ⟨inQuadrant, major, by rw [high]; decide, hint, jump⟩
        rw [if_neg jump] at form spec
        rw [if_neg destination] at form
        exact stands_form form rfl spec (by decide)
  · exact stands_none spec
  · exact stands_form form rfl spec (by decide)
  · by_cases narrow : arch = .rv32
    · rw [decide_eq_true narrow] at spec
      exact stands_none spec
    · rw [if_neg narrow] at form
      rw [decide_eq_false narrow] at spec
      exact stands_form form rfl spec (by decide)

theorem isHint_of_isHintAdd (hint : IsHintAdd instr) : IsHint (halfword instr) := by
  obtain ⟨inQuadrant, major, high, destination, source⟩ := hint
  rw [quadrant_halfword] at inQuadrant
  rw [cOpcode_halfword] at major
  rw [cB12_halfword] at high
  have two : ∀ field : BitVec 2, field.setWidth 32 = 2#32 → field = 2 := by decide
  have four : ∀ field : BitVec 3, field.setWidth 32 = 0b100#32 → field = 0b100 := by decide
  have set : ∀ field : BitVec 1, field.setWidth 32 ≠ 0#32 → field = 1 := by decide
  refine ⟨two _ inQuadrant, four _ major, set _ high, ?_, ?_⟩
  · rwa [rvc_rd]
  · rwa [rvc_rs2]

theorem stands_of_compressed (plain : ¬ IsHint (halfword instr)) (compressed : quadrant instr ≠ 3) :
    Stands arch instr := by
  obtain low | low | low | low := pair_cases (Rvc.bits (halfword instr) 1 0)
  · exact stands0 low
  · exact stands1 low
  · exact stands2 (mt isHint_of_isHintAdd plain) low
  · exact absurd (by rw [quadrant_halfword, low]; rfl) compressed

end Forms

/-! ## Whole words -/

variable {isa : Isa} {word : Instruction}

theorem isCompressed_eq (word : Instruction) : word.isCompressed = !isFull word := by
  have low : ∀ word : BitVec 32, word.extractLsb' 0 2 = Rvc.bits (halfword word) 1 0 := OrHom.ext (by decide)
  have cases : ∀ field : BitVec 2, decide (field.setWidth 32 < 3#32) = !decide (field = 0b11) := by decide
  unfold isCompressed isFull
  rw [quadrant_halfword, low]
  exact cases _

theorem length_eq (word : Instruction) : length isa word = word.size isa := by
  unfold length Instruction.size
  rw [isCompressed_eq]
  cases isFull word <;> rfl

/-- What the ISA makes of a word is what the simulator makes of it. -/
theorem decoded_of_decode {op : Mapping} {i : Instruction} (decodes : decode isa word = some (op, i)) :
    ∃ op' i', word.decoded isa = some (op', i') ∧ Alike op' i' op i := by
  obtain ⟨_, whole, named⟩ := Option.bind_eq_some_iff.mp decodes
  obtain ⟨_, named, same⟩ := Option.map_eq_some_iff.mp named
  cases same
  have answer := decodeNormal_of_name named
  unfold Instruction.decoded
  rw [isCompressed_eq]
  cases full : isFull word with
  | true =>
    rw [if_pos full] at whole
    cases whole
    exact ⟨_, _, rfl, answer ▸ .same _ _⟩
  | false =>
    rw [if_neg (by simp [full])] at whole
    obtain ⟨plain, stands⟩ := Option.ite_none_left_eq_some.mp whole
    have compressed : quadrant word ≠ 3 := by
      intro three
      have short := isCompressed_eq word
      unfold isCompressed at short
      rw [three, full] at short
      cases short
    obtain ⟨op', i', answers, alike⟩ := stands_of_compressed plain compressed _ stands
    rw [answer] at alike
    refine ⟨op', i', ?_, alike⟩
    simp only [Bool.not_false, if_true, answers]

end RiscvVp.Spec
