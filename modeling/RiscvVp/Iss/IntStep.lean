/-
# RiscvVp.Iss.IntStep -- one execution of an integer instruction

`exec_step` on a core whose program counter is aligned, up to the write of zero to `x0`
that `run_step` ends with.  The destination register, the program counter and the trap are
the specification's, and nothing else changes.  Where the C++ operators are not defined (a
shift by the width of its operand or more, a division by zero or one that overflows) the
same value comes out of arithmetic that refuses them.
-/
import RiscvVp.Iss.Fetched
import RiscvVp.Iss.IntExec

namespace RiscvVp

set_option autoImplicit false

open Lib Transition

/-! ## Operators that are not always defined -/

namespace Cpp

variable {w : Nat}

def shl (a : BitVec w) (n : Nat) : Option (BitVec w) := if n < w then some (a <<< n) else none

def shr (a : BitVec w) (n : Nat) : Option (BitVec w) := if n < w then some (a >>> n) else none

def sar (a : BitVec w) (n : Nat) : Option (BitVec w) :=
  if n < w then some (a.sshiftRight n) else none

/-- A signed operator `/` or `%`. -/
def signed (f : BitVec w → BitVec w → BitVec w) (a b : BitVec w) : Option (BitVec w) :=
  if b = 0 ∨ a = BitVec.intMin w ∧ b = -1 then none else some (f a b)

/-- An unsigned operator `/` or `%`. -/
def unsigned (f : BitVec w → BitVec w → BitVec w) (a b : BitVec w) : Option (BitVec w) :=
  if b = 0 then none else some (f a b)

def divSigned (a b : BitVec w) : Option (BitVec w) :=
  if b = 0 then some (-1) else if a = BitVec.intMin w ∧ b = -1 then some a
  else signed BitVec.sdiv a b

def divUnsigned (a b : BitVec w) : Option (BitVec w) :=
  if b = 0 then some (-1) else unsigned (· / ·) a b

def remSigned (a b : BitVec w) : Option (BitVec w) :=
  if b = 0 then some a else if a = BitVec.intMin w ∧ b = -1 then some 0
  else signed BitVec.srem a b

def remUnsigned (a b : BitVec w) : Option (BitVec w) :=
  if b = 0 then some a else unsigned (· % ·) a b

/-- The value of a shift or of a division, by operators that refuse; `none` where one does, and
for every other instruction. -/
def value {isa : Isa} (i : Instruction) (a b : Word isa) : Mapping → Option (Word isa)
  | .slli => shl a i.shamt.toNat
  | .srli => shr a i.shamt.toNat
  | .srai => sar a i.shamt.toNat
  | .sll => shl a (Iss.regShamt b)
  | .srl => shr a (Iss.regShamt b)
  | .sra => sar a (Iss.regShamt b)
  | .slliw => (shl (a.setWidth 32) i.shamtW.toNat).map (·.signExtend isa.xlen)
  | .srliw => (shr (a.setWidth 32) i.shamtW.toNat).map (·.signExtend isa.xlen)
  | .sraiw => (sar (a.setWidth 32) i.shamtW.toNat).map (·.signExtend isa.xlen)
  | .sllw => (shl (a.setWidth 32) (Iss.shamtW (b.setWidth 32))).map (·.signExtend isa.xlen)
  | .srlw => (shr (a.setWidth 32) (Iss.shamtW (b.setWidth 32))).map (·.signExtend isa.xlen)
  | .sraw => (sar (a.setWidth 32) (Iss.shamtW (b.setWidth 32))).map (·.signExtend isa.xlen)
  | .div => divSigned a b
  | .divu => divUnsigned a b
  | .rem => remSigned a b
  | .remu => remUnsigned a b
  | .divw => (divSigned (a.setWidth 32) (b.setWidth 32)).map (·.signExtend isa.xlen)
  | .divuw => (divUnsigned (a.setWidth 32) (b.setWidth 32)).map (·.signExtend isa.xlen)
  | .remw => (remSigned (a.setWidth 32) (b.setWidth 32)).map (·.signExtend isa.xlen)
  | .remuw => (remUnsigned (a.setWidth 32) (b.setWidth 32)).map (·.signExtend isa.xlen)
  | _ => none

/-- The instructions that shift or divide. -/
def isPartial : Mapping → Bool
  | .slli | .srli | .srai | .sll | .srl | .sra
  | .slliw | .srliw | .sraiw | .sllw | .srlw | .sraw
  | .div | .divu | .rem | .remu | .divw | .divuw | .remw | .remuw => true
  | _ => false

section Values

variable {a b : BitVec w} {n : Nat}

theorem shl_eq (fits : n < w) : shl a n = some (Spec.sll a n) := by
  simp [shl, fits, Spec.sll, TwosComplement.shiftLeft_eq]

theorem shr_eq (fits : n < w) : shr a n = some (Spec.srl a n) := by
  simp [shr, fits, Spec.srl, TwosComplement.ushiftRight_eq]

theorem sar_eq (fits : n < w) : sar a n = some (Spec.sra a n) := by
  simp [sar, fits, Spec.sra, TwosComplement.sshiftRight_eq]

/-- The guards of the source keep each operator where it is defined. -/
theorem divSigned_eq (positive : 0 < w) : divSigned a b = some (Spec.div a b) := by
  rw [← Iss.divSigned_eq a b positive]
  unfold divSigned Iss.divSigned signed
  split
  · rfl
  split
  · rfl
  · rw [if_neg]
    rintro (zero | overflow)
    · contradiction
    · contradiction

theorem remSigned_eq (positive : 0 < w) : remSigned a b = some (Spec.rem a b) := by
  rw [← Iss.remSigned_eq a b positive]
  unfold remSigned Iss.remSigned signed
  split
  · rfl
  split
  · rfl
  · rw [if_neg]
    rintro (zero | overflow)
    · contradiction
    · contradiction

theorem divUnsigned_eq : divUnsigned a b = some (Spec.divu a b) := by
  rw [← Iss.divUnsigned_eq a b]
  unfold divUnsigned Iss.divUnsigned unsigned
  split <;> rfl

theorem remUnsigned_eq : remUnsigned a b = some (Spec.remu a b) := by
  rw [← Iss.remUnsigned_eq a b]
  unfold remUnsigned Iss.remUnsigned unsigned
  split <;> rfl

end Values

end Cpp

namespace Iss

open Spec Effect

variable {isa : Isa} {World : Type}

/-! ## Shift amounts -/

section Shifts

variable {op : Mapping} {i word : Instruction}

/-- The amount of the encoding: six bits, of which the decoder of RV32 wants the first zero. -/
theorem shamt_of_decodeNormal (shift : op = .slli ∨ op = .srli ∨ op = .srai)
    (decodes : i.decodeNormal isa.arch = op) : i.shamt.toNat = Spec.shamt i isa := by
  have parts : ∀ i : Instruction, i.shamt =
      (i.extractLsb' 20 5).setWidth 32 ||| (i.extractLsb' 25 1).setWidth 32 <<< 5 := by
    unfold Instruction.shamt
    exact OrHom.ext (by decide)
  have whole : ∀ i : Instruction, i.shamt = (i.extractLsb' 20 6).setWidth 32 := by
    unfold Instruction.shamt
    exact OrHom.ext (by decide)
  cases isa with
  | rv64 =>
    rw [whole, BitVec.toNat_setWidth_of_le (by decide)]
    rfl
  | rv32 =>
    have named : op ≠ .undef := by rcases shift with rfl | rfl | rfl <;> decide
    have fits := ((Instruction.decodeNormal_eq_iff named).mp decodes).2
    have masked : ∀ i : Instruction, i.extractLsb' 25 1 = (i &&& Mapping.shift32Mask).extractLsb' 25 1 :=
      OrHom.ext (by decide)
    have clear : i.extractLsb' 25 1 = 0 := by
      rw [masked]
      rcases shift with rfl | rfl | rfl
      all_goals
        rw [show i &&& Mapping.shift32Mask = _ from fits]
        decide
    rw [parts, clear]
    show (BitVec.setWidth 32 _ ||| 0#32).toNat = _
    rw [BitVec.or_zero, BitVec.toNat_setWidth_of_le (by decide)]
    rfl

theorem shamt_of_decoded (shift : op = .slli ∨ op = .srli ∨ op = .srai)
    (decodes : word.decoded isa = some (op, i)) : i.shamt.toNat = Spec.shamt i isa := by
  refine shamt_of_decodeNormal shift ?_
  unfold Instruction.decoded at decodes
  split at decodes
  · cases answered : word.decodeAndExpandCompressed isa.arch with
    | error _ =>
      rw [answered] at decodes
      cases decodes
    | ok result =>
      obtain ⟨op', i'⟩ := result
      rw [answered] at decodes
      cases decodes
      rcases Instruction.carries_or_cAddiw answered with carries | ⟨-, addiw⟩
      · exact carries (by rcases shift with rfl | rfl | rfl <;> nofun)
      · rcases shift with rfl | rfl | rfl <;> cases addiw
  · cases decodes
    rfl

theorem shamt_lt (i : Instruction) : Spec.shamt i isa < isa.xlen := by
  cases isa
  · exact (i.extractLsb' 20 5).isLt
  · exact (i.extractLsb' 20 6).isLt

theorem shamtW_lt (i : Instruction) : Spec.shamtW i < 32 := (i.extractLsb' 20 5).isLt

theorem value_of_writesW {x : BitVec 32} {e : Effect isa} (defined : writesW x = some e) :
    e.value = some (x.signExtend isa.xlen) := by
  cases isa with
  | rv32 => cases defined
  | rv64 =>
    cases defined
    rfl

/-- Every shift and every division is evaluated where its operator is defined. -/
theorem value_defined {a b pc next : Word isa} {e : Effect isa} (partly : Cpp.isPartial op = true)
    (decodes : word.decoded isa = some (op, i)) (defined : effect isa i a b pc next op = some e) :
    Cpp.value i a b op = e.value := by
  have wide : 0 < isa.xlen := by cases isa <;> decide
  have inside : b.toNat % isa.xlen < isa.xlen := Nat.mod_lt _ wide
  have inside32 : b.toNat % 32 < 32 := Nat.mod_lt _ (by decide)
  have narrow := shamtW_lt i
  have encoded := @shamt_of_decoded isa op i word
  have fits := @shamt_lt isa i
  cases op
  case slli | srli | srai =>
    have amount := encoded (by decide) decodes
    cases defined
    simp [Cpp.value, amount, Cpp.shl_eq, Cpp.shr_eq, Cpp.sar_eq, fits]
  case sll | srl | sra =>
    cases defined
    simp only [Cpp.value, regShamt_eq]
    simp [Cpp.shl_eq, Cpp.shr_eq, Cpp.sar_eq, inside]
  case slliw | srliw | sraiw =>
    rw [value_of_writesW defined]
    simp [Cpp.value, shamtW_eq, Cpp.shl_eq, Cpp.shr_eq, Cpp.sar_eq, narrow]
  case sllw | srlw | sraw =>
    rw [value_of_writesW defined]
    simp [Cpp.value, shamtW_setWidth, Cpp.shl_eq, Cpp.shr_eq, Cpp.sar_eq, inside32]
  case div | divu | rem | remu =>
    cases defined
    simp [Cpp.value, Cpp.divSigned_eq, Cpp.remSigned_eq, Cpp.divUnsigned_eq, Cpp.remUnsigned_eq, wide]
  case divw | divuw | remw | remuw =>
    rw [value_of_writesW defined]
    simp [Cpp.value, Cpp.divSigned_eq, Cpp.remSigned_eq, Cpp.divUnsigned_eq, Cpp.remUnsigned_eq]
  all_goals cases partly

end Shifts

/-! ## The step -/

section Step

variable {plat : Platform World} {s : Iss isa World} {word i : Instruction} {op : Mapping}
  {e : Effect isa}

/-- `exec_step`, and the zero that `run_step` puts in `x0`. -/
def execute (plat : Platform World) : IssM isa World Unit := do
  execStep plat
  writeReg 0 0

/-- A jump or a taken branch to an address that is not a multiple of four, without compressed
instructions. -/
def Misaligned (s : Iss isa World) (e : Effect isa) (target : Word isa) : Prop :=
  e.target = some target ∧ target.toNat % 4 ≠ 0 ∧ s.hasExtension Misa.extC = false

/-- What an instruction leaves: the specified registers and program counter, and all the rest
as it was.  The fetch may have set flags of a page-table entry. -/
structure Executed (plat : Platform World) (s : Iss isa World) (i : Instruction) (e : Effect isa)
    (next : Word isa) (t : Iss isa World) : Prop where
  regs : t.regs = writeRd i e s.regs
  pc : t.pc = e.target.getD next
  fpRegs : t.fpRegs = s.fpRegs
  prv : t.prv = s.prv
  csrs : t.csrs.reg = s.csrs.reg
  world : Untouched plat s.world t.world

theorem even_of_aligned (aligned : s.pc &&& ~~~s.pcAlignmentMask = 0) : s.pc &&& 1 = 0 := by
  unfold pcAlignmentMask at aligned
  split at aligned
  · rwa [BitVec.not_not] at aligned
  · have low : (1 : Word isa) = 3 &&& 1 := by cases isa <;> decide
    rw [BitVec.not_not] at aligned
    rw [low, ← BitVec.and_assoc, aligned]
    exact BitVec.zero_and

theorem hasExtension_of_still {u : Iss isa World} (still : Still plat s none u) (f : Field 1) :
    u.hasExtension f = s.hasExtension f := by
  unfold hasExtension
  rw [still.reg]

/-- Without a misaligned target the effect is carried out. -/
theorem outcome_ok {u : Iss isa World} (fits : ∀ target, ¬ Misaligned u e target) :
    ∃ t, outcome i e u = (.ok (), t) ∧
      t = { u with pc := e.target.getD u.pc, regs := t.regs } ∧
      t.regs = match e.value with
        | some value => fun r => if r = Spec.rd i then value else u.regs r
        | none => u.regs := by
  have wide : 2 < isa.xlen := by cases isa <;> decide
  obtain ⟨value, target⟩ := e
  unfold outcome
  cases target with
  | none => cases value <;> exact ⟨_, rfl, rfl, rfl⟩
  | some target =>
    have kept : ¬ (target &&& 3 ≠ 0 ∧ !u.hasExtension Misa.extC) := by
      rintro ⟨odd, absent⟩
      refine fits target ⟨rfl, ?_, by simpa using absent⟩
      rwa [Ne, and_three_eq_zero_iff wide] at odd
    simp only [if_neg kept]
    cases value <;> exact ⟨_, rfl, rfl, rfl⟩

theorem outcome_trap {u : Iss isa World} {target : Word isa} (misaligned : Misaligned u e target) :
    outcome i e u =
      (.error (.trap ⟨.instrAddrMisaligned, target.setWidth 64⟩), { u with pc := target }) := by
  have wide : 2 < isa.xlen := by cases isa <;> decide
  obtain ⟨transfers, odd, absent⟩ := misaligned
  unfold outcome
  rw [transfers]
  refine if_pos ⟨?_, by simp [absent]⟩
  rwa [Ne, and_three_eq_zero_iff wide]

/-- The registers after the instruction and the zero. -/
theorem zeroed_eq_writeRd {regs : BitVec 5 → Word isa} :
    (fun r => if r = 0 then 0 else
      (match e.value with
        | some value => fun r => if r = Spec.rd i then value else regs r
        | none => regs) r) = writeRd i e regs := by
  funext r
  unfold writeRd
  cases e.value <;> rfl

/-- One execution of an integer instruction that is enabled, from any registers and from any
aligned program counter. -/
theorem execute_integer (current : s.lastPc = s.pc) (aligned : s.pc &&& ~~~s.pcAlignmentMask = 0)
    (fetches : fetched plat s = some word) (decodes : word.decoded isa = some (op, i))
    (compressed : word.isCompressed = true → Extends (Misa.C isa) s)
    (multiplies : isM op = true → Extends (Misa.M isa) s)
    (defined : effect isa i (s.regs (Spec.rs1 i)) (s.regs (Spec.rs2 i)) s.pc (s.pc + word.size isa) op =
      some e) :
    (Cpp.isPartial op = true →
      Cpp.value i (s.regs (Spec.rs1 i)) (s.regs (Spec.rs2 i)) op = e.value) ∧
    (∀ target, Misaligned s e target → ∃ t, (execute plat).run s =
      (.error (.trap ⟨.instrAddrMisaligned, target.setWidth 64⟩), t) ∧ Still plat s none t) ∧
    ((∀ target, ¬ Misaligned s e target) → ∃ t, (execute plat).run s = (.ok (), t) ∧
      Executed plat s i e (s.pc + word.size isa) t) := by
  obtain ⟨u, prepared, rfl, rfl, decoded⟩ := decoded_of_fetched fetches decodes fun short _ => compressed short
  have still := decoded.still
  have even : u.lastPc &&& 1 = 0 := by
    rw [still.lastPc, current]
    exact even_of_aligned aligned
  have effects : effect isa u.instr (u.regs (Spec.rs1 u.instr)) (u.regs (Spec.rs2 u.instr)) u.lastPc u.pc
      u.op = some e := by
    rw [still.regs, still.lastPc, current, decoded.pc]
    exact defined
  have enabled : isM u.op = true → Extends (Misa.M isa) u := by
    intro mul
    unfold Extends
    rw [still.reg]
    exact multiplies mul
  have ran : (execStep plat).run s = outcome u.instr e u :=
    (run_execStep aligned prepared).trans
      (exec_outcome effects enabled (fun shift => shamt_of_decoded shift decodes) even)
  have same : ∀ target, Misaligned u e target ↔ Misaligned s e target := by
    intro target
    unfold Misaligned
    rw [hasExtension_of_still still]
  refine ⟨fun partly => value_defined partly decodes defined, ?_, ?_⟩
  · intro target misaligned
    rw [outcome_trap ((same target).mpr misaligned)] at ran
    refine ⟨_, Exec.run_bind_error ran, ?_⟩
    exact { still with }
  · intro fits
    obtain ⟨t, done, kept, written⟩ : ∃ t, outcome u.instr e u = (.ok (), t) ∧ _ :=
      outcome_ok fun target misaligned => fits target ((same target).mp misaligned)
    rw [done] at ran
    refine ⟨_, Exec.run_bind_ok ran, ?_⟩
    rw [kept]
    refine ⟨?_, by rw [← decoded.pc]; rfl, still.fpRegs, still.prv, still.reg, still.world⟩
    rw [← still.regs, ← zeroed_eq_writeRd, ← written]
    rfl

/-- ADDI x1, x1, 1 on a core out of reset. -/
theorem execute_addi : ∃ t, (execute Flat.platform).run (everywhere 0x00108093) = (.ok (), t) ∧
    Executed Flat.platform (everywhere 0x00108093) 0x00108093 ⟨some 1, none⟩ 4 t := by
  have fetches : fetched Flat.platform (everywhere 0x00108093) = some 0x00108093 := by decide
  have decodes : Instruction.decoded .rv64 0x00108093 = some (.addi, 0x00108093) := by decide
  exact (execute_integer rfl (by decide) fetches decodes nofun nofun rfl).2.2 nofun

end Step

end Iss

end RiscvVp
