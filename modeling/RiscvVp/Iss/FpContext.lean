/-
# RiscvVp.Iss.FpContext -- whether the FP registers are in use

An operating system that saves the FP registers lazily relies on two things: with
`mstatus.fs` off no instruction touches them, and what touches them sets `fs` to dirty, and
`sd` with it.  The arithmetic keeps to that, because it is framed by `fp_prepare_instr` and
`fp_finish_instr`.  The loads and stores of FP registers and the accesses to `fcsr` are not
framed: they are the exceptions.
-/
import RiscvVp.Iss.CsrStorage
import RiscvVp.Iss.Modes

namespace RiscvVp

set_option autoImplicit false

open Lib Transition

namespace Mapping

def isFpLoad : Mapping → Bool
  | .flw | .fld => true
  | _ => false

def isFpStore : Mapping → Bool
  | .fsw | .fsd => true
  | _ => false

end Mapping

namespace Iss

variable {isa : Isa} {World : Type}

/-! ## The context -/

def FpOff (s : Iss isa World) : Prop := Mstatus.fs.get (s.csrs.reg .mstatus) = 0#2

def FpDirty (s : Iss isa World) : Prop :=
  Mstatus.fs.get (s.csrs.reg .mstatus) = 3#2 ∧ (Mstatus.sd isa).get (s.csrs.reg .mstatus) = 1#1

instance (s : Iss isa World) : Decidable (FpOff s) := inferInstanceAs (Decidable (_ = _))

instance (s : Iss isa World) : Decidable (FpDirty s) := inferInstanceAs (Decidable (_ ∧ _))

/-- The FP registers and `fcsr` are the same. -/
def FpSame (s t : Iss isa World) : Prop :=
  t.fpRegs = s.fpRegs ∧ t.csrs.reg .fcsr = s.csrs.reg .fcsr

/-- The instruction reads or writes `fcsr`, under one of its three addresses. -/
def FpAccess (instr : Instruction) (op : Mapping) : Prop :=
  op.isCsr = true ∧ instr.csr.setWidth 12 ∈
    [CsrAddr.fflags.addr, CsrAddr.frm.addr, CsrAddr.fcsr.addr]

/-- It ended with a result or a trap: the simulation goes on. -/
def GoesOn (o : Option Exc) : Prop := ∀ e, o = some e → IsTrap e

/-! ## Three transitions -/

/-- The context stays as it is. -/
def FpHeld (s : Iss isa World) (_ : Option Exc) (t : Iss isa World) : Prop := FpSame s t

/-- A context that is dirty stays dirty. -/
def DirtyKept (s : Iss isa World) (_ : Option Exc) (t : Iss isa World) : Prop :=
  FpDirty s → FpDirty t

/-- What changes the context leaves it dirty. -/
def FpMarked (s : Iss isa World) (o : Option Exc) (t : Iss isa World) : Prop :=
  GoesOn o → (FpSame s t ∨ FpDirty t) ∧ (FpDirty s → FpDirty t)

/-- The library has no flags left over between two instructions. -/
def Unflagged (s : Iss isa World) (o : Option Exc) (t : Iss isa World) : Prop :=
  GoesOn o → s.softfloatExceptionFlags = 0 → t.softfloatExceptionFlags = 0

theorem goesOn_none : GoesOn none := by
  intro e same
  cases same

theorem FpSame.trans {s t u : Iss isa World} (first : FpSame s t) (second : FpSame t u) :
    FpSame s u := ⟨second.1.trans first.1, second.2.trans first.2⟩

instance : Closed (@FpHeld isa World) where
  refl _ := ⟨rfl, rfl⟩
  trans first second := FpSame.trans first second

instance : Closed (@DirtyKept isa World) where
  refl _ := id
  trans first second := fun dirty => second (first dirty)

instance : Closed (@FpMarked isa World) where
  refl _ _ := ⟨.inl ⟨rfl, rfl⟩, id⟩
  trans first second goes := by
    obtain ⟨changed, kept⟩ := first goesOn_none
    obtain ⟨changed', kept'⟩ := second goes
    refine ⟨?_, fun dirty => kept' (kept dirty)⟩
    rcases changed' with same' | dirty
    · rcases changed with same | dirty
      · exact .inl (same.trans same')
      · exact .inr (kept' dirty)
    · exact .inr dirty

instance : Closed (@Unflagged isa World) where
  refl _ _ := id
  trans first second goes clear := second goes (first goesOn_none clear)

theorem dirtyKept_of_status {s t : Iss isa World} {o : Option Exc}
    (status : ∀ i, FpStatus isa i →
      (t.csrs.reg .mstatus).getLsbD i = (s.csrs.reg .mstatus).getLsbD i) : DirtyKept s o t := by
  rintro ⟨fs, sd⟩
  refine ⟨?_, ?_⟩
  · rw [Field.get_congr fun i covered => status i (.inl covered)]
    exact fs
  · rw [Field.get_congr fun i covered => status i (.inr covered)]
    exact sd

theorem fpMarked_of_held {s t : Iss isa World} {o : Option Exc} (held : FpHeld s o t)
    (kept : DirtyKept s o t) : FpMarked s o t := fun _ => ⟨.inl held, kept⟩

/-- Of a write to a register of the trap handlers. -/
theorem setCsr_trap (s : Iss isa World) {c d : Csr} (own : c.isTrap = true) (other : d.isTrap = false)
    (value : Word isa) : (s.setCsr c value).csrs.reg d = s.csrs.reg d := by
  apply setCsr_reg_of_ne
  rintro rfl
  rw [own] at other
  cases other

instance : Indifferent (@FpHeld isa World) where
  trap _ _ _ _ := ⟨rfl, rfl⟩
  rethrow _ _ _ _ step := step
  abort _ _ _ := ⟨rfl, rfl⟩
  scratch _ _ _ _ := ⟨rfl, rfl⟩
  move _ _ := ⟨rfl, rfl⟩
  cycle := ⟨fun _ => ⟨rfl, rfl⟩⟩
  world _ _ := ⟨rfl, rfl⟩
  stuck _ _ _ _ := ⟨rfl, rfl⟩
  counter _ k _ _ := ⟨rfl, by cases k <;> rfl⟩
  reservation _ _ _ := ⟨rfl, rfl⟩
  mode _ _ _ := ⟨rfl, rfl⟩
  csr s _ value own := ⟨rfl, setCsr_trap s own rfl value⟩
  status s value _ := ⟨rfl, setCsr_reg_of_ne s (by decide) value⟩
  refused _ _ _ _ := ⟨rfl, rfl⟩

instance : Checks (@FpHeld isa World) where
  issue _ _ _ := ⟨rfl, rfl⟩

instance : Indifferent (@DirtyKept isa World) where
  trap _ _ _ _ := id
  rethrow _ _ _ _ step := step
  abort _ _ _ := id
  scratch _ _ _ _ := id
  move _ _ := id
  cycle := ⟨fun _ => id⟩
  world _ _ := id
  stuck _ _ _ _ := id
  counter _ k _ _ := dirtyKept_of_status fun _ _ => by cases k <;> rfl
  reservation _ _ _ := id
  mode _ _ _ := id
  csr s _ value own := dirtyKept_of_status fun _ _ => by rw [setCsr_trap s own rfl]
  status s value same := dirtyKept_of_status fun i fp => by
    rw [setCsr_reg_self]
    exact same i (fpStatus_high fp)
  refused _ _ _ _ := id

instance : Checks (@DirtyKept isa World) where
  issue _ _ _ := id

instance : Indifferent (@FpMarked isa World) where
  trap _ _ _ _ := fpMarked_of_held ⟨rfl, rfl⟩ id
  rethrow _ _ _ _ step _ := step fun _ same => by cases same; trivial
  abort _ _ _ := fpMarked_of_held ⟨rfl, rfl⟩ id
  scratch _ _ _ _ := fpMarked_of_held ⟨rfl, rfl⟩ id
  move _ _ := fpMarked_of_held ⟨rfl, rfl⟩ id
  cycle := ⟨fun _ => fpMarked_of_held ⟨rfl, rfl⟩ id⟩
  world _ _ := fpMarked_of_held ⟨rfl, rfl⟩ id
  stuck _ _ _ _ := fpMarked_of_held ⟨rfl, rfl⟩ id
  counter s k value other :=
    fpMarked_of_held (o := none) (Inner.counter s k value other : FpHeld s none _)
      (Inner.counter s k value other : DirtyKept s none _)
  reservation _ _ _ := fpMarked_of_held ⟨rfl, rfl⟩ id
  mode _ _ _ := fpMarked_of_held ⟨rfl, rfl⟩ id
  csr s c value own :=
    fpMarked_of_held (o := none) (Inner.csr s c value own : FpHeld s none _)
      (Inner.csr s c value own : DirtyKept s none _)
  status s value same :=
    fpMarked_of_held (o := none) (Inner.status s value same : FpHeld s none _)
      (Inner.status s value same : DirtyKept s none _)
  refused _ _ _ _ := fpMarked_of_held ⟨rfl, rfl⟩ id

instance : Checks (@FpMarked isa World) where
  issue _ _ _ := fpMarked_of_held ⟨rfl, rfl⟩ id

instance : Indifferent (@Unflagged isa World) where
  trap _ _ _ _ _ := id
  rethrow _ _ _ _ step _ := step fun _ same => by cases same; trivial
  abort _ _ _ _ := id
  scratch _ _ _ _ _ := id
  move _ _ _ := id
  cycle := ⟨fun _ _ => id⟩
  world _ _ _ := id
  stuck _ _ _ _ _ := id
  counter _ _ _ _ _ := id
  reservation _ _ _ _ := id
  mode _ _ _ _ := id
  csr _ _ _ _ _ := id
  status _ _ _ _ := id
  refused _ _ _ _ _ := id

instance : Checks (@Unflagged isa World) where
  issue _ _ _ _ := id

instance : Writes (@FpHeld isa World) where
  reg _ _ _ := ⟨rfl, rfl⟩
  exit _ := ⟨rfl, rfl⟩

instance : Writes (@DirtyKept isa World) where
  reg _ _ _ := id
  exit _ := id

instance : Writes (@FpMarked isa World) where
  reg _ _ _ := fpMarked_of_held ⟨rfl, rfl⟩ id
  exit _ := fpMarked_of_held ⟨rfl, rfl⟩ id

instance : Writes (@Unflagged isa World) where
  reg _ _ _ _ := id
  exit _ _ := id

instance (field : BitVec 32) (value : BitVec 64) : Sat (@Unflagged isa World) (writeF64 field value) :=
  .update fun _ _ => id

instance (field value : BitVec 32) : Sat (@Unflagged isa World) (writeF32 field value) := by
  unfold writeF32
  infer_instance

/-! ## The end of an FP instruction -/

section Finish

variable (s : Iss isa World)

/-- `fp_set_dirty`. -/
theorem fpSetDirty_dirty : FpDirty (fpSetDirty.run s).2 := by
  have fs : Mstatus.fs.Fits isa.xlen := by cases isa <;> decide
  have sd : (Mstatus.sd isa).Fits isa.xlen := by cases isa <;> decide
  have apart : (Mstatus.sd isa).Disjoint Mstatus.fs := by cases isa <;> decide
  have after : (fpSetDirty.run s).2.csrs.reg .mstatus =
      Mstatus.fs.set 3#2 ((Mstatus.sd isa).set 1#1 (s.csrs.reg .mstatus)) := rfl
  unfold FpDirty
  rw [after, Field.get_set fs, Field.get_set_of_disjoint apart, Field.get_set sd]
  exact ⟨rfl, rfl⟩

/-- `fp_update_exception_flags` has something to do, and then it sets the context to dirty, or
it does nothing. -/
theorem run_fpUpdateExceptionFlags : ∃ t, fpUpdateExceptionFlags.run s = (.ok (), t) ∧
    t.softfloatExceptionFlags = 0 ∧ (t = s ∨ FpDirty t) := by
  unfold fpUpdateExceptionFlags
  rw [Exec.run_read_bind]
  by_cases clear : s.softfloatExceptionFlags = 0
  · rw [if_neg (not_not.mpr clear)]
    exact ⟨s, rfl, clear, .inl rfl⟩
  · rw [if_pos clear]
    have dirtied : fpSetDirty.run s = (.ok (), (fpSetDirty.run s).2) := rfl
    rw [Exec.run_bind_ok dirtied, run_readField_bind, run_writeField_bind]
    refine ⟨_, rfl, rfl, .inr ?_⟩
    exact fpSetDirty_dirty s

theorem run_fpFinishInstr : ∃ t, fpFinishInstr.run s = (.ok (), t) ∧
    t.softfloatExceptionFlags = 0 ∧ FpDirty t := by
  have dirtied : fpSetDirty.run s = (.ok (), (fpSetDirty.run s).2) := rfl
  obtain ⟨t, ran, clear, same | dirty⟩ := run_fpUpdateExceptionFlags (fpSetDirty.run s).2
  · refine ⟨t, ?_, clear, ?_⟩
    · unfold fpFinishInstr
      rwa [Exec.run_bind_ok dirtied]
    · rw [same]
      exact fpSetDirty_dirty s
  · refine ⟨t, ?_, clear, dirty⟩
    unfold fpFinishInstr
    rwa [Exec.run_bind_ok dirtied]

end Finish

instance : FpWrites (@DirtyKept isa World) where
  reg _ _ _ := id
  flags _ _ := id
  dirty := ⟨fun s _ => fpSetDirty_dirty s⟩
  accrue _ := .update fun s => dirtyKept_of_status fun _ _ => by
    rw [setCsr_reg_of_ne s (by decide)]

/-! ## The frames -/

section Frames

/-- The rest of an instruction, after the check: it leaves the context dirty or alone, and no
flags. -/
def FpTail (s : Iss isa World) (o : Option Exc) (t : Iss isa World) : Prop :=
  GoesOn o → (FpSame s t ∨ FpDirty t) ∧
    (s.softfloatExceptionFlags = 0 → t.softfloatExceptionFlags = 0)

/-- ... and it is refused where the context is off. -/
def FpArith (s : Iss isa World) (o : Option Exc) (t : Iss isa World) : Prop :=
  FpTail s o t ∧ (FpOff s → s.softfloatExceptionFlags = 0 →
    o = some (.trap ⟨.illegalInstr, s.instr.setWidth 64⟩) ∧ t = s)

instance : Closed (Any : Transition (Iss isa World) Exc) := inferInstance

instance : Writes (Any : Transition (Iss isa World) Exc) := ⟨fun _ _ _ => trivial, fun _ => trivial⟩

instance : FpWrites (Any : Transition (Iss isa World) Exc) where
  reg _ _ _ := trivial
  flags _ _ := trivial
  dirty := ⟨fun _ => trivial⟩
  accrue _ := ⟨fun _ => trivial⟩

variable {α : Type}

instance : Sat FpArith (raiseIllegalInstruction : IssM isa World α) :=
  ⟨fun _ => ⟨fun _ => ⟨.inl ⟨rfl, rfl⟩, id⟩, fun _ _ => ⟨rfl, rfl⟩⟩⟩

/-- A part before the body. -/
theorem fpTail_bind {β : Type} {m : IssM isa World α} {f : α → IssM isa World β}
    (held : Sat FpHeld m) (clear : Sat Unflagged m) (rest : ∀ a, Sat FpTail (f a)) :
    Sat FpTail (m >>= f) where
  holds s := by
    cases ran : m.run s with
    | mk result t =>
      cases result with
      | error e =>
        rw [Exec.run_bind_error ran]
        exact fun goes => ⟨.inl (held.error ran), clear.error ran goes⟩
      | ok a =>
        rw [Exec.run_bind_ok ran]
        intro goes
        obtain ⟨changed, cleared⟩ := (rest a).holds t goes
        refine ⟨?_, fun zero => cleared (clear.ok ran goesOn_none zero)⟩
        rcases changed with same | dirty
        · exact .inl (FpSame.trans (held.ok ran) same)
        · exact .inr dirty

/-- A body that does not trap, and what comes after it. -/
theorem fpTail_body {β : Type} {m : IssM isa World α} {f : α → IssM isa World β}
    (body : Sat (Settled Any IsTrap) m)
    (rest : ∀ s a t, m.run s = (.ok a, t) → FpTail s (failure ((f a).run t).1) ((f a).run t).2) :
    Sat FpTail (m >>= f) where
  holds s := by
    cases ran : m.run s with
    | mk result t =>
      cases result with
      | error e =>
        rw [Exec.run_bind_error ran]
        exact fun goes => absurd (goes e rfl) ((body.error ran).2 e rfl)
      | ok a =>
        rw [Exec.run_bind_ok ran]
        exact rest s a t ran

/-- What ends with `fp_finish_instr`. -/
def FpDone (_ : Iss isa World) (o : Option Exc) (t : Iss isa World) : Prop :=
  GoesOn o → FpDirty t ∧ t.softfloatExceptionFlags = 0

theorem fpDone_finish : Sat FpDone (fpFinishInstr : IssM isa World Unit) where
  holds s := by
    obtain ⟨t, ran, clear, dirty⟩ := run_fpFinishInstr s
    rw [ran]
    exact fun _ => ⟨dirty, clear⟩

theorem fpDone_bind {β : Type} {m : IssM isa World α} {f : α → IssM isa World β}
    (body : Sat (Settled Any IsTrap) m) (rest : ∀ a, Sat FpDone (f a)) : Sat FpDone (m >>= f) where
  holds s := by
    cases ran : m.run s with
    | mk result t =>
      cases result with
      | error e =>
        rw [Exec.run_bind_error ran]
        exact fun goes => absurd (goes e rfl) ((body.error ran).2 e rfl)
      | ok a =>
        rw [Exec.run_bind_ok ran]
        exact (rest a).holds t

theorem fpTail_of_done {m : IssM isa World α} (done : Sat FpDone m) : Sat FpTail m :=
  done.mono fun step goes => ⟨.inr (step goes).1, fun _ => (step goes).2⟩

/-- Every FP instruction that is not a load or a store begins with the two checks. -/
theorem fpArith_framed (ext : Word isa) {rest : Unit → IssM isa World Unit}
    (tail : ∀ a, Sat FpTail (rest a)) :
    Sat FpArith (do requireIsa ext; rest (← fpPrepareInstr)) where
  holds s := by
    rcases run_requireIsa ext s with present | missing
    · rw [Exec.run_bind_ok present]
      refine ⟨(fpTail_bind (m := fpPrepareInstr) inferInstance inferInstance tail).holds s,
        fun off clear => ?_⟩
      have refused : fpPrepareInstr.run s =
          (.error (.trap ⟨.illegalInstr, s.instr.setWidth 64⟩), s) := by
        unfold FpOff at off
        unfold fpPrepareInstr fpRequireNotOff
        rw [Exec.run_read_bind, run_assert_bind s clear, run_readField_bind, if_pos off]
        rfl
      rw [Exec.run_bind_error refused]
      exact ⟨rfl, rfl⟩
    · have illegal : (requireIsa ext).run s =
          (.error (.trap ⟨.illegalInstr, s.instr.setWidth 64⟩), s) := missing
      rw [Exec.run_bind_error illegal]
      exact ⟨fun _ => ⟨.inl ⟨rfl, rfl⟩, id⟩, fun _ _ => ⟨rfl, rfl⟩⟩

section Body

variable (instr : Instruction) (ext : Word isa) (body : IssM isa World Unit)
  [settled : Sat (Settled Any IsTrap) body]

instance : Sat FpArith (fpRounding instr ext body) :=
  fpArith_framed ext fun _ => fpTail_bind inferInstance inferInstance fun _ =>
    fpTail_of_done (fpDone_bind settled fun _ => fpDone_finish)

/-- The body writes a register and raises no flags. -/
instance [clear : Sat Unflagged body] : Sat FpArith (fpMoving ext body) := by
  refine fpArith_framed ext fun _ => fpTail_body settled fun s _ t ran _ => ?_
  have cleared := clear.ok ran goesOn_none
  exact ⟨.inr (fpSetDirty_dirty t), cleared⟩

/-- The body raises flags and writes no FP register. -/
instance [held : Sat FpHeld body] : Sat FpArith (fpComparing ext body) := by
  refine fpArith_framed ext fun _ => fpTail_body settled fun s _ t ran _ => ?_
  obtain ⟨u, updated, clear, same | dirty⟩ := run_fpUpdateExceptionFlags t
  · rw [updated, same]
    exact ⟨.inl (held.ok ran), fun _ => same ▸ clear⟩
  · rw [updated]
    exact ⟨.inr dirty, fun _ => clear⟩

end Body

instance (call : α × BitVec 8) : Sat (@FpHeld isa World) (softfloat call) :=
  .bind (.update fun _ => ⟨rfl, rfl⟩) fun _ => inferInstance

section Shapes

variable (instr : Instruction) (plat : Platform World)

instance (f : BitVec 8 → BitVec 32 → BitVec 32 → BitVec 32 × BitVec 8) :
    Sat FpArith (f32Binary instr f : IssM isa World Unit) := by
  unfold f32Binary
  infer_instance

instance (f : BitVec 8 → BitVec 64 → BitVec 64 → BitVec 64 × BitVec 8) :
    Sat FpArith (f64Binary instr f : IssM isa World Unit) := by
  unfold f64Binary
  infer_instance

instance (negProduct negAddend : BitVec 32 → BitVec 32) :
    Sat FpArith (f32Fused instr plat negProduct negAddend : IssM isa World Unit) := by
  unfold f32Fused
  infer_instance

instance (negProduct negAddend : BitVec 64 → BitVec 64) :
    Sat FpArith (f64Fused instr plat negProduct negAddend : IssM isa World Unit) := by
  unfold f64Fused
  infer_instance

instance (f : BitVec 32 → BitVec 32 → BitVec 32) :
    Sat FpArith (f32Sign instr f : IssM isa World Unit) := by
  unfold f32Sign
  infer_instance

instance (f : BitVec 64 → BitVec 64 → BitVec 64) :
    Sat FpArith (f64Sign instr f : IssM isa World Unit) := by
  unfold f64Sign
  infer_instance

instance (f : BitVec 32 → BitVec 32 → Bool × BitVec 8) :
    Sat FpArith (f32Compare instr f : IssM isa World Unit) := by
  unfold f32Compare
  infer_instance

instance (f : BitVec 64 → BitVec 64 → Bool × BitVec 8) :
    Sat FpArith (f64Compare instr f : IssM isa World Unit) := by
  unfold f64Compare
  infer_instance

instance (first : BitVec 32 → BitVec 32 → IssM isa World Bool)
    [∀ a b, Sat (Settled Any IsTrap) (first a b)] : Sat FpArith (f32Select instr first) :=
  fpArith_framed _ fun _ => fpTail_bind inferInstance inferInstance fun _ =>
    fpTail_bind inferInstance inferInstance fun _ => fpTail_of_done <|
      fpDone_bind inferInstance fun _ => fpDone_bind inferInstance fun _ => fpDone_finish

instance (first : BitVec 64 → BitVec 64 → IssM isa World Bool)
    [∀ a b, Sat (Settled Any IsTrap) (first a b)] : Sat FpArith (f64Select instr first) :=
  fpArith_framed _ fun _ => fpTail_bind inferInstance inferInstance fun _ =>
    fpTail_bind inferInstance inferInstance fun _ => fpTail_of_done <|
      fpDone_bind inferInstance fun _ => fpDone_bind inferInstance fun _ => fpDone_finish

section Conversion

variable {n m : Nat} (ext : Word isa) (source : BitVec 32 → IssM isa World (BitVec n))
  (target : BitVec 32 → BitVec m → IssM isa World Unit)
  [∀ field, Sat (Settled Any IsTrap) (source field)]
  [∀ field x, Sat (Settled Any IsTrap) (target field x)] (f : BitVec 8 → BitVec n → BitVec m × BitVec 8)

instance : Sat FpArith (fpToInt instr ext source f) := by
  unfold fpToInt
  infer_instance

instance : Sat FpArith (intToFp instr ext target f) := by
  unfold intToFp
  infer_instance

instance : Sat FpArith (fpUnary instr ext source target f) := by
  unfold fpUnary
  infer_instance

end Conversion

instance (ext : Word isa) (value : IssM isa World (Word isa)) [held : Sat FpHeld value]
    [clear : Sat Unflagged value] : Sat FpArith (fpInspect instr ext value) := by
  have put : ∀ x, Sat FpTail (writeReg instr.rd x : IssM isa World Unit) :=
    fun x => ⟨fun _ _ => ⟨.inl ⟨rfl, rfl⟩, id⟩⟩
  exact fpArith_framed ext fun _ => fpTail_bind held clear put

variable {op : Mapping}

/-- The FP instructions that are no loads and no stores. -/
theorem fpArith_exec (float : op.isFloat = true) (load : op.isFpLoad = false)
    (store : op.isFpStore = false) : Sat FpArith (exec instr plat op : IssM isa World Unit) := by
  cases op
  all_goals first
    | cases float; done
    | cases load; done
    | cases store; done
    | (unfold exec; infer_instance)

end Shapes

end Frames

/-! ## Loads and stores of FP registers -/

section Memory

variable (instr : Instruction) (plat : Platform World) (R : Transition (Iss isa World) Exc)
  [Loads plat R] {op : Mapping}

theorem sat_fpStore [Stores plat R R] (store : op.isFpStore = true) : Sat R (exec instr plat op) := by
  have stored : ∀ (addr : Word isa) n value, Sat R (storeData plat (dataAddr addr) n value) :=
    fun addr n value => .of_atomic (inferInstance : Sat (Atomic R R IsTrap) _)
  cases op
  case fsw =>
    unfold exec execFsw
    exact .bind inferInstance fun _ => .bind inferInstance fun _ => .bind inferInstance fun _ =>
      .bind inferInstance fun _ => stored _ 4 _
  case fsd =>
    unfold exec execFsd
    exact .bind inferInstance fun _ => .bind inferInstance fun _ => .bind inferInstance fun _ =>
      .bind inferInstance fun _ => stored _ 8 _
  all_goals cases store

theorem sat_fpLoad [∀ field value, Sat R (writeF64 field value : IssM isa World Unit)]
    (load : op.isFpLoad = true) : Sat R (exec instr plat op) := by
  have boxed : ∀ field value, Sat R (writeF32 field value : IssM isa World Unit) := by
    intro field value
    unfold writeF32
    infer_instance
  cases op
  case flw =>
    unfold exec execFlw
    repeat refine .bind inferInstance fun _ => ?_
    exact boxed _ _
  case fld =>
    unfold exec execFld
    repeat refine .bind inferInstance fun _ => ?_
    infer_instance
  all_goals cases load

end Memory

/-! ## `fcsr` -/

theorem cell_fcsr {a : CsrAddr} (own : a.cell isa = some (.reg .fcsr)) :
    a.addr ∈ [CsrAddr.fflags.addr, CsrAddr.frm.addr, CsrAddr.fcsr.addr] := by
  rcases CsrAddr.register_of_cell own with same | ⟨-, past⟩
  · cases a <;> first | decide | cases same
  · unfold CsrAddr.overrun at past
    split at past <;> cases past

theorem fpHeld_setCsrValue {addr : BitVec 12}
    (other : addr ∉ [CsrAddr.fflags.addr, CsrAddr.frm.addr, CsrAddr.fcsr.addr]) (value : Word isa) :
    Sat FpHeld (setCsrValue addr value : IssM isa World Unit) where
  holds s := by
    rcases setCsrValue_cases addr value with illegal | ⟨a, rfl, write⟩
    · rw [illegal]
      exact ⟨rfl, rfl⟩
    have step := (written_setNamedCsr a value).holds s
    rw [write]
    refine ⟨by rw [step.rest], BitVec.eq_of_getLsbD_eq fun i _ => ?_⟩
    exact step.kept .fcsr i fun both => other (cell_fcsr both.1)

theorem dirtyKept_setCsrValue {addr : BitVec 12}
    (own : addr ∈ [CsrAddr.fflags.addr, CsrAddr.frm.addr, CsrAddr.fcsr.addr]) (value : Word isa) :
    Sat DirtyKept (setCsrValue addr value : IssM isa World Unit) where
  holds s := by
    rcases setCsrValue_cases addr value with illegal | ⟨a, rfl, write⟩
    · rw [illegal]
      exact id
    have step := (written_setNamedCsr a value).holds s
    rw [write]
    refine dirtyKept_of_status fun i _ => step.kept .mstatus i fun both => ?_
    rcases CsrAddr.cell_mstatus both.1 with rfl | rfl | rfl <;> exact absurd own (by decide)

theorem unflagged_setCsrValue (addr : BitVec 12) (value : Word isa) :
    Sat Unflagged (setCsrValue addr value : IssM isa World Unit) :=
  sat_setCsrValue (fun _ _ _ => id) addr value

/-! ## The instructions without a check -/

/-- The extension that a load or a store of an FP register belongs to. -/
def fpMemoryExt (isa : Isa) : Mapping → Word isa
  | .fld | .fsd => Misa.D isa
  | _ => Misa.F isa

/-- A load or a store of an FP register, or an access to `fcsr`, that the core implements. -/
def Unchecked (s : Iss isa World) (op : Mapping) (instr : Instruction) : Prop :=
  (op.isFpLoad = true ∨ op.isFpStore = true) ∧ Extends (fpMemoryExt isa op) s ∨
    FpAccess instr op ∧ Extends (Misa.F isa) s

/-- One of those that writes the context. -/
def Unmarked (s : Iss isa World) (op : Mapping) (instr : Instruction) : Prop :=
  op.isFpLoad = true ∧ Extends (fpMemoryExt isa op) s ∨
    FpAccess instr op ∧ CsrWrites instr op ∧ Extends (Misa.F isa) s

section Missing

variable {instr : Instruction} {plat : Platform World} {op : Mapping} {s : Iss isa World}

theorem run_fpMemory_missing (memory : op.isFpLoad = true ∨ op.isFpStore = true)
    (missing : ¬ Extends (fpMemoryExt isa op) s) :
    (exec instr plat op).run s = (.error (.trap ⟨.illegalInstr, s.instr.setWidth 64⟩), s) := by
  cases op
  case flw | fsw | fld | fsd => exact Exec.run_bind_error (run_requireIsa_missing missing)
  all_goals rcases memory with memory | memory <;> cases memory

theorem run_fpAccess_missing (access : FpAccess instr op) (missing : ¬ Extends (Misa.F isa) s) :
    (exec instr plat op).run s = (.error (.trap ⟨.illegalInstr, s.instr.setWidth 64⟩), s) := by
  obtain ⟨csr, among⟩ := access
  have fp : instr.csr.setWidth 12 = CsrAddr.fflags.addr ∨ instr.csr.setWidth 12 = CsrAddr.frm.addr ∨
      instr.csr.setWidth 12 = CsrAddr.fcsr.addr := by
    simpa only [List.mem_cons, List.not_mem_nil, or_false] using among
  have refused : ∀ isWrite, (isInvalidCsrAccess (instr.csr.setWidth 12) isWrite).run s =
      (.error (.trap ⟨.illegalInstr, s.instr.setWidth 64⟩), s) := by
    intro isWrite
    unfold isInvalidCsrAccess
    rw [Exec.when_pos fp]
    exact Exec.run_bind_error (run_requireIsa_missing missing)
  cases swap : op.isCsrSwap with
  | true =>
    rw [exec_csr_swap swap]
    exact Exec.run_bind_error (refused _)
  | false =>
    rw [exec_csr_modify csr swap]
    exact Exec.run_bind_error (refused _)

theorem fpHeld_exec (int : op.isFloat = false) (other : ¬ FpAccess instr op) :
    SatAt FpHeld (exec instr plat op) s := by
  refine satAt_exec plat FpHeld (fun csr => satAt_exec_csr FpHeld (fun _ _ _ => ?_) csr) fun float => ?_
  · exact .of_sat (fpHeld_setCsrValue (fun own => other ⟨csr, own⟩) _)
  · rw [int] at float
    cases float

/-- A dirty context stays so through FP instructions and accesses to `fcsr`. -/
theorem dirtyKept_exec (fp : op.isFloat = true ∨ FpAccess instr op) :
    SatAt DirtyKept (exec instr plat op) s := by
  rcases fp with float | ⟨csr, own⟩
  · exact .of_sat (sat_exec_float instr plat float)
  · exact satAt_exec_csr DirtyKept (fun _ _ _ => .of_sat (dirtyKept_setCsrValue own _)) csr

theorem fpMarked_exec (fp : op.isFloat = true ∨ FpAccess instr op)
    (marks : ¬ FpDirty s → ¬ Unmarked s op instr) : SatAt FpMarked (exec instr plat op) s := by
  have kept : SatAt DirtyKept (exec instr plat op) s := dirtyKept_exec fp
  by_cases dirty : FpDirty s
  · exact fun _ => ⟨.inr (kept dirty), kept⟩
  have fine := marks dirty
  have illegal : (exec instr plat op).run s =
      (.error (.trap ⟨.illegalInstr, s.instr.setWidth 64⟩), s) → SatAt FpMarked (exec instr plat op) s := by
    intro refused
    unfold SatAt
    rw [refused]
    exact fpMarked_of_held ⟨rfl, rfl⟩ id
  rcases fp with float | access
  · cases load : op.isFpLoad with
    | true =>
      refine illegal (run_fpMemory_missing (.inl load) fun present => ?_)
      exact fine (.inl ⟨load, present⟩)
    | false =>
      cases store : op.isFpStore with
      | true => exact .of_sat (sat_fpStore instr plat FpMarked store)
      | false =>
        have arith := (fpArith_exec instr plat float load store).holds s
        exact fun goes => ⟨(arith.1 goes).1, kept⟩
  · by_cases present : Extends (Misa.F isa) s
    · refine satAt_exec_csr FpMarked (fun _ writes _ => ?_) access.1
      exact absurd (.inr ⟨access, writes, present⟩) fine
    · exact illegal (run_fpAccess_missing access present)

theorem unflagged_exec : SatAt Unflagged (exec instr plat op) s := by
  refine satAt_exec plat Unflagged (fun csr => ?_) fun float => ?_
  · exact satAt_exec_csr Unflagged (fun _ _ _ => .of_sat (unflagged_setCsrValue _ _)) csr
  cases load : op.isFpLoad with
  | true => exact .of_sat (sat_fpLoad instr plat Unflagged load)
  | false =>
    cases store : op.isFpStore with
    | true => exact .of_sat (sat_fpStore instr plat Unflagged store)
    | false =>
      have arith := (fpArith_exec instr plat float load store).holds s
      exact fun goes => (arith.1 goes).2

/-- With the context off everything that is checked is refused. -/
theorem exec_refused (off : FpOff s) (clear : s.softfloatExceptionFlags = 0)
    (fp : op.isFloat = true ∨ FpAccess instr op) (checked : ¬ Unchecked s op instr) :
    (exec instr plat op).run s = (.error (.trap ⟨.illegalInstr, s.instr.setWidth 64⟩), s) := by
  by_cases memory : op.isFpLoad = true ∨ op.isFpStore = true
  · exact run_fpMemory_missing memory fun present => checked (.inl ⟨memory, present⟩)
  rcases fp with float | access
  · obtain ⟨load, store⟩ := not_or.mp memory
    have arith := (fpArith_exec instr plat float (by simpa using load) (by simpa using store)).holds s
    obtain ⟨trap, same⟩ := arith.2 off clear
    cases ran : (exec instr plat op).run s with
    | mk result t =>
      rw [ran] at trap same
      cases result with
      | ok _ => cases trap
      | error e =>
        cases trap
        have back : t = s := same
        rw [back]
  · exact run_fpAccess_missing access fun present => checked (.inr ⟨access, present⟩)

end Missing

/-! ## Steps -/

section Step

variable {plat : Platform World}

/-- While the context is off, the next instruction is none of those without a check; while it
is not dirty, none of those that write it unmarked. -/
structure FpCareful (plat : Platform World) (s : Iss isa World) : Prop where
  off : FpOff s → ∀ op instr, nextInstr plat (beforeExec plat s) = some (op, instr) →
    ¬ Unchecked s op instr
  clean : ¬ FpDirty s → ∀ op instr, nextInstr plat (beforeExec plat s) = some (op, instr) →
    ¬ Unmarked s op instr

/-- What an operating system relies on, of the step from `s`. -/
structure FpTracked (plat : Platform World) (s : Iss isa World) : Prop where
  refused : ∀ u, (do fetch plat; decode : IssM isa World Unit).run (beforeExec plat s) = (.ok (), u) →
    FpOff s → (u.op.isFloat = true ∨ FpAccess u.instr u.op) →
    (exec u.instr plat u.op).run u = (.error (.trap ⟨.illegalInstr, u.instr.setWidth 64⟩), u)
  untouched : FpOff s → ∀ t, (runStep plat).run s = (.ok (), t) → FpSame s t
  marked : ∀ t, (runStep plat).run s = (.ok (), t) → FpSame s t ∨ FpDirty t

/-- What the interrupt lines and the fetch leave alone. -/
theorem reg_of_decoded {s u : Iss isa World} (still : Still plat (beforeExec plat s) none u) {c : Csr}
    (other : c ≠ .mip) : u.csrs.reg c = s.csrs.reg c := by
  rw [still.reg]
  exact setCsr_reg_of_ne _ other _

theorem unflagged_runStep (s : Iss isa World) : SatAt Unflagged (runStep plat) s := by
  have performance := sat_performance plat (@Unflagged isa World) (Locks.counter plat) fun _ _ _ => id
  have forget : ∀ {s e t}, @Unflagged isa World s (some (.trap e)) t → Unflagged s none t :=
    fun step _ => step fun _ same => by cases same; trivial
  refine (stepParts_of_modes plat Unflagged performance forget).runStep ?_
  exact satAt_execStep inferInstance fun u _ _ => unflagged_exec

theorem fpHeld_runStep {s : Iss isa World}
    (instruction : SatAt FpHeld (execStep plat) (beforeExec plat s)) :
    SatAt FpHeld (runStep plat) s := by
  have performance := sat_performance plat (@FpHeld isa World) (Locks.counter plat)
    fun _ _ => ⟨rfl, rfl⟩
  exact (stepParts_of_modes plat FpHeld performance id).runStep instruction

theorem fpMarked_runStep {s : Iss isa World}
    (instruction : SatAt FpMarked (execStep plat) (beforeExec plat s)) :
    SatAt FpMarked (runStep plat) s := by
  have performance := sat_performance plat (@FpMarked isa World) (Locks.counter plat)
    fun _ _ => fpMarked_of_held ⟨rfl, rfl⟩ id
  have forget : ∀ {s e t}, @FpMarked isa World s (some (.trap e)) t → FpMarked s none t :=
    fun step _ => step fun _ same => by cases same; trivial
  exact (stepParts_of_modes plat FpMarked performance forget).runStep instruction

section Decoded

variable {s u : Iss isa World} (still : Still plat (beforeExec plat s) none u)
include still

theorem extends_decoded {ext : Word isa} : Extends ext u ↔ Extends ext s := by
  unfold Extends
  rw [reg_of_decoded still (by decide)]

theorem unchecked_decoded {op : Mapping} {instr : Instruction} :
    Unchecked u op instr ↔ Unchecked s op instr := by
  unfold Unchecked
  rw [extends_decoded still, extends_decoded still]

theorem unmarked_decoded {op : Mapping} {instr : Instruction} :
    Unmarked u op instr ↔ Unmarked s op instr := by
  unfold Unmarked
  rw [extends_decoded still, extends_decoded still]

theorem fpOff_decoded : FpOff u ↔ FpOff s := by
  unfold FpOff
  rw [reg_of_decoded still (by decide)]

theorem fpDirty_decoded : FpDirty u ↔ FpDirty s := by
  unfold FpDirty
  rw [reg_of_decoded still (by decide)]

end Decoded

/-- The interrupt lines and the fetch leave the library alone. -/
theorem flags_of_decoded {s u : Iss isa World} (clear : s.softfloatExceptionFlags = 0)
    (prepared : (do fetch plat; decode : IssM isa World Unit).run (beforeExec plat s) = (.ok (), u)) :
    u.softfloatExceptionFlags = 0 := by
  have fetched : Sat Unflagged (do fetch plat; decode : IssM isa World Unit) := inferInstance
  exact Sat.ok fetched prepared goesOn_none clear

/-- Between two steps the library has no flags left over. -/
theorem unflagged_of_run {s : Iss isa World} (reached : Reachable plat s) :
    s.softfloatExceptionFlags = 0 := by
  refine @ReachableBy.invariant _ _ plat _ (fun s => s.softfloatExceptionFlags = 0) ?_ ?_ ?_ s reached
  · intros
    rfl
  · exact fun clear _ ran => (unflagged_runStep _).ok ran goesOn_none clear
  · exact fun _ _ _ _ clear => clear

/-- With the context off an instruction that is checked leaves it alone. -/
theorem fpHeld_of_off {u : Iss isa World} (off : FpOff u) (clear : u.softfloatExceptionFlags = 0)
    (checked : ¬ Unchecked u u.op u.instr) : SatAt FpHeld (exec u.instr plat u.op) u := by
  by_cases fp : u.op.isFloat = true ∨ FpAccess u.instr u.op
  · unfold SatAt
    rw [exec_refused off clear fp checked]
    exact ⟨rfl, rfl⟩
  · obtain ⟨float, access⟩ := not_or.mp fp
    exact fpHeld_exec (by simpa using float) access

/-- What a step changes of the context it leaves dirty. -/
theorem fpMarked_of_clean {s : Iss isa World} (clean : ¬ FpDirty s → ∀ op instr,
    nextInstr plat (beforeExec plat s) = some (op, instr) → ¬ Unmarked s op instr) {t : Iss isa World}
    (ran : (runStep plat).run s = (.ok (), t)) : FpSame s t ∨ FpDirty t := by
  by_cases fp : ∃ op instr, nextInstr plat (beforeExec plat s) = some (op, instr) ∧
      (op.isFloat = true ∨ FpAccess instr op)
  · obtain ⟨op, instr, next, fp⟩ := fp
    have instruction : SatAt FpMarked (execStep plat) (beforeExec plat s) := by
      refine satAt_execStep inferInstance fun u still prepared => ?_
      cases next.symm.trans (nextInstr_of_decoded prepared)
      refine fpMarked_exec fp fun dirty => ?_
      rw [unmarked_decoded still]
      exact clean (fun held => dirty ((fpDirty_decoded still).mpr held)) _ _ next
    exact ((fpMarked_runStep instruction).ok ran goesOn_none).1
  · have instruction : SatAt FpHeld (execStep plat) (beforeExec plat s) := by
      refine satAt_execStep inferInstance fun u still prepared => ?_
      obtain ⟨float, access⟩ := not_or.mp fun own => fp ⟨_, _, nextInstr_of_decoded prepared, own⟩
      exact fpHeld_exec (by simpa using float) access
    exact .inl ((fpHeld_runStep instruction).ok ran)

theorem fpTracked_of_run {s : Iss isa World} (reached : Reachable plat s)
    (careful : FpCareful plat s) : FpTracked plat s := by
  have clear := unflagged_of_run reached
  refine ⟨fun u prepared off fp => ?_, fun off t ran => ?_, fun t ran => ?_⟩
  · have still : Still plat (beforeExec plat s) none u := Sat.ok inferInstance prepared
    refine exec_refused ((fpOff_decoded still).mpr off) (flags_of_decoded clear prepared) fp ?_
    rw [unchecked_decoded still]
    exact careful.off off _ _ (nextInstr_of_decoded prepared)
  · have instruction : SatAt FpHeld (execStep plat) (beforeExec plat s) := by
      refine satAt_execStep inferInstance fun u still prepared => ?_
      refine fpHeld_of_off ((fpOff_decoded still).mpr off) (flags_of_decoded clear prepared) ?_
      rw [unchecked_decoded still]
      exact careful.off off _ _ (nextInstr_of_decoded prepared)
    exact (fpHeld_runStep instruction).ok ran
  · exact fpMarked_of_clean careful.clean ran

/-- `lui x1, 2` and `csrrs x0, mstatus, x1`, and `fadd.s f1, f0, f0` from there on. -/
def floating : Iss .rv64 Flat :=
  reset 0 false 0 0
    ⟨ByteMemory.write (repeating (0x000000D3#32 ++ 0x000000D3#32)) 0 8 (0x3000A073#32 ++ 0x000020B7#32), 0, none⟩

/-- In front of the first `fadd.s`; `fs` is initial. -/
def floated : Iss .rv64 Flat := ((runStep Flat.platform).run ((runStep Flat.platform).run floating).2).2

theorem reachable_floated : Reachable Flat.platform floated :=
  ⟨0, false, 0, 0, _, false, (Run.start.next trivial (by decide)).next trivial (by decide)⟩

theorem fadd_fpTracked : ¬ FpOff floated ∧ ¬ FpDirty floated ∧ FpTracked Flat.platform floated ∧
    FpDirty ((runStep Flat.platform).run floated).2 := by
  have next : nextInstr Flat.platform (beforeExec Flat.platform floated) = some (.faddS, 0xD3) := by decide
  have on : ¬ FpOff floated := by decide
  have tracked := fpTracked_of_run reachable_floated ⟨fun off => absurd off on, fun _ op instr found => by
    cases next.symm.trans found
    rintro (⟨memory, -⟩ | ⟨access, -⟩)
    · exact absurd memory (by decide)
    · exact absurd access.1 (by decide)⟩
  refine ⟨on, by decide, tracked, (tracked.marked _ (Prod.ext (by decide) rfl)).resolve_left fun same => ?_⟩
  exact absurd (congrArg (fun regs => regs 1) same.1) (by decide)

/-- `flw f1, 0(x0)` out of reset, with `fs` off: the register is written and the context is
not marked. -/
theorem flw_not_fpTracked : ¬ ∀ s : Iss .rv64 Flat, Reachable Flat.platform s →
    FpTracked Flat.platform s := by
  intro tracked
  have reached : Reachable Flat.platform (everywhere 0x00002087) := ⟨0, false, 0, 0, _, false, .start⟩
  have same := (tracked _ reached).untouched (by decide) _ (Prod.ext (by decide) rfl)
  exact absurd (congrArg (fun regs => regs 1) same.1) (by decide)

end Step

end Iss

end RiscvVp
