/-
# RiscvVp.Iss.Fetched -- what a step has before it when it comes to its instruction

The fetch leaves the program counter, the opcode and the instruction register alone until the
word is there; the decoder then fills the two registers and moves the program counter behind
the word, over two bytes or four.
-/
import RiscvVp.Iss.Modes

namespace RiscvVp

set_option autoImplicit false

open Lib Transition

namespace Iss

variable {isa : Isa} {World : Type}

/-- The word that lies at the program counter. -/
def fetched (plat : Platform World) (s : Iss isa World) : Option Instruction :=
  match (loadInstr plat (s.pc.setWidth 64)).run s with
  | (.ok word, _) => some word
  | (.error _, _) => none

/-! ## Loading the word -/

/-- The program counter, the opcode and the instruction stay. -/
def Parked (s : Iss isa World) (_ : Option Exc) (t : Iss isa World) : Prop :=
  t.pc = s.pc ∧ t.op = s.op ∧ t.instr = s.instr

instance : Closed (@Parked isa World) where
  refl _ := ⟨rfl, rfl, rfl⟩
  trans first second :=
    ⟨second.1.trans first.1, second.2.1.trans first.2.1, second.2.2.trans first.2.2⟩

instance (type : MemoryAccessType) (va : BitVec 64) : Walks (@Parked isa World) type va where
  fault _ := ⟨rfl, rfl, rfl⟩
  abort _ _ _ := ⟨rfl, rfl, rfl⟩
  fill _ _ := ⟨rfl, rfl, rfl⟩

instance : Lifts Answers (@Parked isa World) := ⟨fun _ _ _ _ => ⟨rfl, rfl, rfl⟩⟩

theorem parked_loadInstr (plat : Platform World) (va : BitVec 64) :
    Sat (@Parked isa World) (loadInstr plat va) := sat_loadInstr plat Answers Parked va

/-! ## Fetch and decode -/

section Prepare

variable {plat : Platform World} {s u : Iss isa World} {word : Instruction}

/-- The decoder gives up on a word that is none, and traps where a compressed instruction is
not enabled, behind it. -/
theorem decode_error {e : Exc} (ran : decode.run s = (.error e, u)) :
    s.instr.decoded isa = none ∧ e = .abort .decode ∧ u = s ∨
      ∃ op instr, s.instr.decoded isa = some (op, instr) ∧ op ≠ .undef ∧
        s.instr.isCompressed = true ∧ ¬ Extends (Misa.C isa) s ∧
        e = .trap ⟨.illegalInstr, instr.setWidth 64⟩ ∧
        u = { s with instr := instr, op := op, pc := s.pc + s.instr.size isa } := by
  cases known : s.instr.decoded isa with
  | none =>
    rw [run_decode_none known] at ran
    cases ran
    exact .inl ⟨rfl, rfl, rfl⟩
  | some result =>
    obtain ⟨op, instr⟩ := result
    rw [run_decode_some known] at ran
    by_cases asks : s.instr.isCompressed = true ∧ op ≠ .undef
    · rw [if_pos asks] at ran
      by_cases enabled : Extends (Misa.C isa)
          { s with instr := instr, op := op, pc := s.pc + s.instr.size isa }
      · rw [run_requireIsa_present enabled] at ran
        cases ran
      · rw [run_requireIsa_missing enabled] at ran
        cases ran
        exact .inr ⟨op, instr, rfl, asks.2, asks.1, enabled, rfl, rfl⟩
    · rw [if_neg asks] at ran
      cases ran

/-- The word that was fetched, and what has become of the core. -/
structure Decoded (plat : Platform World) (s : Iss isa World) (word : Instruction)
    (u : Iss isa World) : Prop where
  fetched : fetched plat s = some word
  decoded : word.decoded isa = some (u.op, u.instr)
  pc : u.pc = s.pc + word.size isa
  still : Still plat s none u

theorem decoded_of_ok (ran : (do fetch plat; decode : IssM isa World Unit).run s = (.ok (), u)) :
    ∃ word, Decoded plat s word u := by
  have still : Still plat s none u := Sat.ok inferInstance ran
  obtain ⟨_, v, fetches, decodes⟩ := Exec.run_bind_eq_ok.mp ran
  obtain ⟨word, w, loaded, rfl⟩ := fetch_eq_ok.mp fetches
  obtain ⟨op, instr, decoded, -, rfl⟩ := decode_eq_ok.mp decodes
  have parked := (parked_loadInstr plat _).ok loaded
  exact ⟨word, by simp [Iss.fetched, loaded], decoded, by simp [parked.1], still⟩

/-- A word that decodes, with the compressed ones enabled where it is one, is prepared. -/
theorem decoded_of_fetched {op : Mapping} {instr : Instruction} (fetches : fetched plat s = some word)
    (decodes : word.decoded isa = some (op, instr))
    (present : word.isCompressed = true → op ≠ .undef → Extends (Misa.C isa) s) :
    ∃ u, (do fetch plat; decode : IssM isa World Unit).run s = (.ok (), u) ∧ u.op = op ∧
      u.instr = instr ∧ Decoded plat s word u := by
  unfold fetched at fetches
  split at fetches
  case h_2 => cases fetches
  case h_1 word v loaded =>
    cases fetches
    have still : Still plat s none v := Sat.ok inferInstance loaded
    have put : (fetch plat).run s = (.ok (), { v with instr := word }) :=
      fetch_eq_ok.mpr ⟨word, v, loaded, rfl⟩
    have enabled : word.isCompressed = true → op ≠ .undef →
        Extends (Misa.C isa) { v with instr := word } := by
      intro short named
      show isa = .rv32 → v.csrs.reg .misa &&& Misa.C isa ≠ 0
      rw [still.reg]
      exact present short named
    have ran : (do fetch plat; decode : IssM isa World Unit).run s = _ :=
      Exec.run_bind_eq_ok.mpr ⟨(), _, put, decode_eq_ok.mpr ⟨op, instr, decodes, enabled, rfl⟩⟩
    obtain ⟨word', same⟩ := decoded_of_ok ran
    have found : fetched plat s = some word := by simp [fetched, loaded]
    cases Option.some.inj (same.fetched.symm.trans found)
    exact ⟨_, ran, rfl, rfl, same⟩

/-- An aligned step is its instruction, from where it is fetched and decoded. -/
theorem run_execStep (aligned : s.pc &&& ~~~s.pcAlignmentMask = 0)
    (ran : (do fetch plat; decode : IssM isa World Unit).run s = (.ok (), u)) :
    (execStep plat).run s = (exec u.instr plat u.op).run u := by
  obtain ⟨_, v, fetches, decodes⟩ := Exec.run_bind_eq_ok.mp ran
  unfold execStep
  rw [Exec.run_read_bind, run_assert_bind s aligned, Exec.run_bind_ok fetches,
    Exec.run_bind_ok decodes, Exec.run_read_bind, Exec.run_read_bind]

end Prepare

end Iss

end RiscvVp
