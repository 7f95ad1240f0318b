/-
# RiscvVp.Iss.IntSpec -- the integer instructions, as the ISA defines them

What the specification says about the computational instructions, the jumps and the
branches of RV32IM and RV64IM, in numbers: a word stands for an unsigned or a signed
number, and a result is taken modulo `2 ^ XLEN`.  Nothing here is taken from the source.
-/
import RiscvVp.Iss.Core

namespace RiscvVp.Spec

set_option autoImplicit false

/-! ## Fields of an instruction -/

section Fields

variable (i : Instruction)

def rd : BitVec 5 := i.extractLsb' 7 5

def rs1 : BitVec 5 := i.extractLsb' 15 5

def rs2 : BitVec 5 := i.extractLsb' 20 5

def immI : BitVec 12 := i.extractLsb' 20 12

def immU : BitVec 32 := i.extractLsb' 12 20 ++ 0#12

def immJ : BitVec 21 :=
  i.extractLsb' 31 1 ++ i.extractLsb' 12 8 ++ i.extractLsb' 20 1 ++ i.extractLsb' 21 10 ++ 0#1

def immB : BitVec 13 :=
  i.extractLsb' 31 1 ++ i.extractLsb' 7 1 ++ i.extractLsb' 25 6 ++ i.extractLsb' 8 4 ++ 0#1

/-- Five bits on RV32, six on RV64. -/
def shamt : Isa → Nat
  | .rv32 => (i.extractLsb' 20 5).toNat
  | .rv64 => (i.extractLsb' 20 6).toNat

def shamtW : Nat := (i.extractLsb' 20 5).toNat

end Fields

/-! ## Operations on words -/

section Operations

variable {w : Nat} (a b : BitVec w)

def add : BitVec w := .ofInt w (a.toInt + b.toInt)

def sub : BitVec w := .ofInt w (a.toInt - b.toInt)

def slt : BitVec w := if a.toInt < b.toInt then 1 else 0

def sltu : BitVec w := if a.toNat < b.toNat then 1 else 0

def sll (n : Nat) : BitVec w := .ofInt w ↑(a.toNat * 2 ^ n)

def srl (n : Nat) : BitVec w := .ofInt w ↑(a.toNat / 2 ^ n)

def sra (n : Nat) : BitVec w := .ofInt w (a.toInt / 2 ^ n)

def mul : BitVec w := .ofInt w (a.toInt * b.toInt)

def mulh : BitVec w := .ofInt w (a.toInt * b.toInt / 2 ^ w)

def mulhsu : BitVec w := .ofInt w (a.toInt * b.toNat / 2 ^ w)

def mulhu : BitVec w := .ofInt w (a.toNat * b.toNat / 2 ^ w)

/-- Division by zero gives all bits set, the overflow gives the dividend. -/
def div : BitVec w :=
  if b.toInt = 0 then .ofInt w (-1)
  else if a.toInt = -2 ^ (w - 1) ∧ b.toInt = -1 then a
  else .ofInt w (a.toInt.tdiv b.toInt)

def divu : BitVec w := if b.toNat = 0 then .ofInt w (-1) else .ofInt w ↑(a.toNat / b.toNat)

/-- Division by zero leaves the dividend, the overflow leaves nothing. -/
def rem : BitVec w :=
  if b.toInt = 0 then a
  else if a.toInt = -2 ^ (w - 1) ∧ b.toInt = -1 then 0
  else .ofInt w (a.toInt.tmod b.toInt)

def remu : BitVec w := if b.toNat = 0 then a else .ofInt w ↑(a.toNat % b.toNat)

end Operations

/-! ## Instructions -/

/-- What an instruction does: it writes a value to `rd`, or it transfers control, or both. -/
structure Effect (isa : Isa) where
  value : Option (Word isa)
  target : Option (Word isa)

namespace Effect

variable {isa : Isa}

def writes (value : Word isa) : Option (Effect isa) := some ⟨some value, none⟩

def branches (taken : Bool) (target : Word isa) : Option (Effect isa) :=
  some ⟨none, if taken then some target else none⟩

/-- An instruction of RV64 on the lower halves of the registers; its result is sign-extended. -/
def writesW (value : BitVec 32) : Option (Effect isa) :=
  match isa with
  | .rv32 => none
  | .rv64 => writes (value.signExtend 64)

end Effect

open Effect

/-- The effect of an instruction, given the words in `rs1` and `rs2`, its own address and that of
the next one; `none` if it is not one of these instructions. -/
def effect (isa : Isa) (i : Instruction) (a b pc next : Word isa) : Mapping → Option (Effect isa)
  | .addi => writes (add a ((immI i).signExtend _))
  | .slti => writes (slt a ((immI i).signExtend _))
  | .sltiu => writes (sltu a ((immI i).signExtend _))
  | .xori => writes (a ^^^ (immI i).signExtend _)
  | .ori => writes (a ||| (immI i).signExtend _)
  | .andi => writes (a &&& (immI i).signExtend _)
  | .slli => writes (sll a (shamt i isa))
  | .srli => writes (srl a (shamt i isa))
  | .srai => writes (sra a (shamt i isa))
  | .add => writes (add a b)
  | .sub => writes (sub a b)
  | .sll => writes (sll a (b.toNat % isa.xlen))
  | .slt => writes (slt a b)
  | .sltu => writes (sltu a b)
  | .srl => writes (srl a (b.toNat % isa.xlen))
  | .sra => writes (sra a (b.toNat % isa.xlen))
  | .xor => writes (a ^^^ b)
  | .or => writes (a ||| b)
  | .and => writes (a &&& b)
  | .lui => writes ((immU i).signExtend _)
  | .auipc => writes (add pc ((immU i).signExtend _))
  | .jal => some ⟨some next, some (add pc ((immJ i).signExtend _))⟩
  | .jalr => some ⟨some next, some (add a ((immI i).signExtend _) &&& ~~~1)⟩
  | .beq => branches (a = b) (add pc ((immB i).signExtend _))
  | .bne => branches (a ≠ b) (add pc ((immB i).signExtend _))
  | .blt => branches (a.toInt < b.toInt) (add pc ((immB i).signExtend _))
  | .bge => branches (b.toInt ≤ a.toInt) (add pc ((immB i).signExtend _))
  | .bltu => branches (a.toNat < b.toNat) (add pc ((immB i).signExtend _))
  | .bgeu => branches (b.toNat ≤ a.toNat) (add pc ((immB i).signExtend _))
  | .mul => writes (mul a b)
  | .mulh => writes (mulh a b)
  | .mulhsu => writes (mulhsu a b)
  | .mulhu => writes (mulhu a b)
  | .div => writes (div a b)
  | .divu => writes (divu a b)
  | .rem => writes (rem a b)
  | .remu => writes (remu a b)
  | .addiw => writesW (add (a.setWidth 32) ((immI i).signExtend 32))
  | .slliw => writesW (sll (a.setWidth 32) (shamtW i))
  | .srliw => writesW (srl (a.setWidth 32) (shamtW i))
  | .sraiw => writesW (sra (a.setWidth 32) (shamtW i))
  | .addw => writesW (add (a.setWidth 32) (b.setWidth 32))
  | .subw => writesW (sub (a.setWidth 32) (b.setWidth 32))
  | .sllw => writesW (sll (a.setWidth 32) (b.toNat % 32))
  | .srlw => writesW (srl (a.setWidth 32) (b.toNat % 32))
  | .sraw => writesW (sra (a.setWidth 32) (b.toNat % 32))
  | .mulw => writesW (mul (a.setWidth 32) (b.setWidth 32))
  | .divw => writesW (div (a.setWidth 32) (b.setWidth 32))
  | .divuw => writesW (divu (a.setWidth 32) (b.setWidth 32))
  | .remw => writesW (rem (a.setWidth 32) (b.setWidth 32))
  | .remuw => writesW (remu (a.setWidth 32) (b.setWidth 32))
  | _ => none

/-- The instructions of the M extension. -/
def isM : Mapping → Bool
  | .mul | .mulh | .mulhsu | .mulhu | .div | .divu | .rem | .remu
  | .mulw | .divw | .divuw | .remw | .remuw => true
  | _ => false

/-- The register file afterwards; `x0` stays zero. -/
def writeRd {isa : Isa} (i : Instruction) (e : Effect isa) (regs : BitVec 5 → Word isa) :
    BitVec 5 → Word isa := fun r =>
  if r = 0 then 0
  else
    match e.value with
    | some value => if r = rd i then value else regs r
    | none => regs r

end RiscvVp.Spec
