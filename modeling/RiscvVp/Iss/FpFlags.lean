/-
# RiscvVp.Iss.FpFlags -- the flags of the floating-point library

The library adds the exceptions of its operations to a global variable, which
`fp_prepare_instr` asserts to be zero and `fp_finish_instr` and `fp_update_exception_flags`
move into `fcsr`.  `softfloatCalls` says what the library is asked by each instruction, and
with which operands.  Every instruction leaves the variable at zero, and what its calls have
raised is in `fflags`.
-/
import RiscvVp.Iss.FpContext

namespace RiscvVp.Iss

set_option autoImplicit false

open Lib Transition

variable {isa : Isa} {World : Type}

/-! ## What an instruction asks of the library -/

/-- The rounding mode of an instruction. -/
def fpRm (instr : Instruction) (s : Iss isa World) : BitVec 8 :=
  if instr.frm = 7 then (Fcsr.frm.get (s.csrs.reg .fcsr)).setWidth 8 else instr.frm.setWidth 8

section Calls

variable (lib : SoftFloat)

/-- `FMIN_S` asks whether the operands are equal only if the first is not smaller. -/
def f32BeforeCalls (a b : BitVec 32) : List (BitVec 8) :=
  (lib.f32LtQuiet a b).2 :: if (lib.f32LtQuiet a b).1 then [] else [(lib.f32Eq a b).2]

def f64BeforeCalls (a b : BitVec 64) : List (BitVec 8) :=
  (lib.f64LtQuiet a b).2 :: if (lib.f64LtQuiet a b).1 then [] else [(lib.f64Eq a b).2]

/-- The flags that the calls of an instruction raise, one entry a call. -/
def softfloatCalls (instr : Instruction) (s : Iss isa World) (op : Mapping) : List (BitVec 8) :=
  let rm := fpRm instr s
  let f32 (field : BitVec 32) : BitVec 32 := unboxF32 (s.fpRegs (regIndex field))
  let f64 (field : BitVec 32) : BitVec 64 := s.fpRegs (regIndex field)
  let x (n : Nat) : BitVec n := (s.regs (regIndex instr.rs1)).setWidth n
  match op with
  | .faddS => [(lib.f32Add rm (f32 instr.rs1) (f32 instr.rs2)).2]
  | .fsubS => [(lib.f32Sub rm (f32 instr.rs1) (f32 instr.rs2)).2]
  | .fmulS => [(lib.f32Mul rm (f32 instr.rs1) (f32 instr.rs2)).2]
  | .fdivS => [(lib.f32Div rm (f32 instr.rs1) (f32 instr.rs2)).2]
  | .fsqrtS => [(lib.f32Sqrt rm (f32 instr.rs1)).2]
  | .fminS => f32BeforeCalls lib (f32 instr.rs1) (f32 instr.rs2)
  | .fmaxS => f32BeforeCalls lib (f32 instr.rs2) (f32 instr.rs1)
  | .fmaddS => [(lib.f32MulAdd rm (f32 instr.rs1) (f32 instr.rs2) (f32 instr.rs3)).2]
  | .fmsubS => [(lib.f32MulAdd rm (f32 instr.rs1) (f32 instr.rs2) (F32.neg (f32 instr.rs3))).2]
  | .fnmaddS =>
      [(lib.f32MulAdd rm (F32.neg (f32 instr.rs1)) (f32 instr.rs2) (F32.neg (f32 instr.rs3))).2]
  | .fnmsubS => [(lib.f32MulAdd rm (F32.neg (f32 instr.rs1)) (f32 instr.rs2) (f32 instr.rs3)).2]
  | .fcvtWS => [(lib.f32ToI32 rm (f32 instr.rs1)).2]
  | .fcvtWuS => [(lib.f32ToUi32 rm (f32 instr.rs1)).2]
  | .fcvtSW => [(lib.i32ToF32 rm (x 32)).2]
  | .fcvtSWu => [(lib.ui32ToF32 rm (x 32)).2]
  | .feqS => [(lib.f32Eq (f32 instr.rs1) (f32 instr.rs2)).2]
  | .fltS => [(lib.f32Lt (f32 instr.rs1) (f32 instr.rs2)).2]
  | .fleS => [(lib.f32Le (f32 instr.rs1) (f32 instr.rs2)).2]
  | .fcvtLS => [(lib.f32ToI64 rm (f32 instr.rs1)).2]
  | .fcvtLuS => [(lib.f32ToUi64 rm (f32 instr.rs1)).2]
  | .fcvtSL => [(lib.i64ToF32 rm (x 64)).2]
  | .fcvtSLu => [(lib.ui64ToF32 rm (x 64)).2]
  | .faddD => [(lib.f64Add rm (f64 instr.rs1) (f64 instr.rs2)).2]
  | .fsubD => [(lib.f64Sub rm (f64 instr.rs1) (f64 instr.rs2)).2]
  | .fmulD => [(lib.f64Mul rm (f64 instr.rs1) (f64 instr.rs2)).2]
  | .fdivD => [(lib.f64Div rm (f64 instr.rs1) (f64 instr.rs2)).2]
  | .fsqrtD => [(lib.f64Sqrt rm (f64 instr.rs1)).2]
  | .fminD => f64BeforeCalls lib (f64 instr.rs1) (f64 instr.rs2)
  | .fmaxD => f64BeforeCalls lib (f64 instr.rs2) (f64 instr.rs1)
  | .fmaddD => [(lib.f64MulAdd rm (f64 instr.rs1) (f64 instr.rs2) (f64 instr.rs3)).2]
  | .fmsubD => [(lib.f64MulAdd rm (f64 instr.rs1) (f64 instr.rs2) (F64.neg (f64 instr.rs3))).2]
  | .fnmaddD =>
      [(lib.f64MulAdd rm (F64.neg (f64 instr.rs1)) (f64 instr.rs2) (F64.neg (f64 instr.rs3))).2]
  | .fnmsubD => [(lib.f64MulAdd rm (F64.neg (f64 instr.rs1)) (f64 instr.rs2) (f64 instr.rs3)).2]
  | .feqD => [(lib.f64Eq (f64 instr.rs1) (f64 instr.rs2)).2]
  | .fltD => [(lib.f64Lt (f64 instr.rs1) (f64 instr.rs2)).2]
  | .fleD => [(lib.f64Le (f64 instr.rs1) (f64 instr.rs2)).2]
  | .fcvtWD => [(lib.f64ToI32 rm (f64 instr.rs1)).2]
  | .fcvtWuD => [(lib.f64ToUi32 rm (f64 instr.rs1)).2]
  | .fcvtDW => [(lib.i32ToF64 rm (x 32)).2]
  | .fcvtDWu => [(lib.ui32ToF64 rm (x 32)).2]
  | .fcvtSD => [(lib.f64ToF32 rm (f64 instr.rs1)).2]
  | .fcvtDS => [(lib.f32ToF64 rm (f32 instr.rs1)).2]
  | .fcvtLD => [(lib.f64ToI64 rm (f64 instr.rs1)).2]
  | .fcvtLuD => [(lib.f64ToUi64 rm (f64 instr.rs1)).2]
  | .fcvtDL => [(lib.i64ToF64 rm (x 64)).2]
  | .fcvtDLu => [(lib.ui64ToF64 rm (x 64)).2]
  | _ => []

end Calls

/-! ## From the library into `fcsr` -/

/-- All the flags of some calls. -/
def allFlags (calls : List (BitVec 8)) : BitVec 8 := calls.foldl (· ||| ·) 0

/-- The calls are made, and their flags are still in the library. -/
structure Raised (s : Iss isa World) (calls : List (BitVec 8)) (w : Iss isa World) : Prop where
  flags : w.softfloatExceptionFlags = allFlags calls
  fcsr : w.csrs.reg .fcsr = s.csrs.reg .fcsr

/-- The flags are in `fcsr`, whose rounding mode stays, and the library has none. -/
structure Accrued (s : Iss isa World) (calls : List (BitVec 8)) (t : Iss isa World) : Prop where
  clear : t.softfloatExceptionFlags = 0
  fflags : Fcsr.fflags.get (t.csrs.reg .fcsr) =
    Fcsr.fflags.get (s.csrs.reg .fcsr) ||| (allFlags calls).setWidth 5
  frm : Fcsr.frm.get (t.csrs.reg .fcsr) = Fcsr.frm.get (s.csrs.reg .fcsr)

section Accrue

variable {s w : Iss isa World} {calls : List (BitVec 8)}

theorem raised_one {flags : BitVec 8} (clear : s.softfloatExceptionFlags = 0)
    (raised : w.softfloatExceptionFlags = s.softfloatExceptionFlags ||| flags)
    (fcsr : w.csrs.reg .fcsr = s.csrs.reg .fcsr) : Raised s [flags] w := by
  refine ⟨?_, fcsr⟩
  rw [raised, clear]
  rfl

theorem accrued_update (raised : Raised s calls w) :
    ∃ t, fpUpdateExceptionFlags.run w = (.ok (), t) ∧ Accrued s calls t := by
  have fits : Fcsr.fflags.Fits isa.xlen := by cases isa <;> decide
  have apart : Fcsr.frm.Disjoint Fcsr.fflags := by decide
  unfold fpUpdateExceptionFlags
  rw [Exec.run_read_bind]
  by_cases none : w.softfloatExceptionFlags = 0
  · rw [if_neg (not_not.mpr none)]
    refine ⟨w, rfl, none, ?_, by rw [raised.fcsr]⟩
    rw [raised.fcsr, ← raised.flags, none]
    exact BitVec.or_zero.symm
  · rw [if_pos none]
    have dirtied : fpSetDirty.run w = (.ok (), (fpSetDirty.run w).2) := rfl
    have fcsr : (fpSetDirty.run w).2.csrs.reg .fcsr = s.csrs.reg .fcsr := raised.fcsr
    rw [Exec.run_bind_ok dirtied, run_readField_bind, run_writeField_bind]
    refine ⟨_, rfl, rfl, ?_, ?_⟩
    · show Fcsr.fflags.get (Fcsr.fflags.set _ ((fpSetDirty.run w).2.csrs.reg .fcsr)) = _
      rw [Field.get_set fits, fcsr, ← raised.flags]
    · show Fcsr.frm.get (Fcsr.fflags.set _ ((fpSetDirty.run w).2.csrs.reg .fcsr)) = _
      rw [Field.get_set_of_disjoint apart, fcsr]

theorem accrued_finish (raised : Raised s calls w) :
    ∃ t, fpFinishInstr.run w = (.ok (), t) ∧ Accrued s calls t := by
  have dirtied : fpSetDirty.run w = (.ok (), (fpSetDirty.run w).2) := rfl
  have kept : Raised s calls (fpSetDirty.run w).2 := ⟨raised.flags, raised.fcsr⟩
  obtain ⟨t, ran, accrued⟩ := accrued_update kept
  exact ⟨t, (Exec.run_bind_ok dirtied).trans ran, accrued⟩

end Accrue

/-! ## The frames -/

/-- What refuses an instruction before it asks the library. -/
def illegalAt (s : Iss isa World) : Except Exc Unit × Iss isa World :=
  (.error (.trap ⟨.illegalInstr, s.instr.setWidth 64⟩), s)

/-- An instruction that runs through, with its flags moved, or that is refused. -/
def Concludes (s : Iss isa World) (calls : List (BitVec 8)) (r : Except Exc Unit × Iss isa World) :
    Prop :=
  (∃ t, r = (.ok (), t) ∧ Accrued s calls t) ∨ r = illegalAt s

section Frames

variable {s : Iss isa World} {calls : List (BitVec 8)} {instr : Instruction}

theorem run_fpPrepareInstr (clear : s.softfloatExceptionFlags = 0) :
    fpPrepareInstr.run s = (.ok (), s) ∨ fpPrepareInstr.run s = illegalAt s := by
  unfold fpPrepareInstr fpRequireNotOff
  rw [Exec.run_read_bind, run_assert_bind s clear, run_readField_bind]
  split
  · exact .inr rfl
  · exact .inl rfl

theorem run_fpSetupRm (instr : Instruction) (s : Iss isa World) :
    (fpSetupRm instr).run s = (.ok (), { s with softfloatRoundingMode := fpRm instr s }) ∨
      (fpSetupRm instr).run s = illegalAt s := by
  have unfolded : (fpSetupRm instr).run s = (if fpRm instr s ≥ 4 then raiseIllegalInstruction
      else Exec.update fun t => { t with softfloatRoundingMode := fpRm instr s } :
        IssM isa World Unit).run s := rfl
  rw [unfolded]
  split
  · exact .inr rfl
  · exact .inl rfl

/-- A check, and what follows it. -/
theorem concludes_check {check : IssM isa World Unit} {rest : Unit → IssM isa World Unit}
    {t : Iss isa World} (checked : check.run s = (.ok (), t) ∨ check.run s = illegalAt s)
    (tail : Concludes s calls ((rest ()).run t)) : Concludes s calls ((check >>= rest).run s) := by
  rcases checked with passed | refused
  · rw [Exec.run_bind_ok passed]
    exact tail
  · rw [Exec.run_bind_error refused]
    exact .inr rfl

theorem concludes_framed (ext : Word isa) {rest : IssM isa World Unit}
    (clear : s.softfloatExceptionFlags = 0) (tail : Concludes s calls (rest.run s)) :
    Concludes s calls ((do requireIsa ext; fpPrepareInstr; rest : IssM isa World Unit).run s) :=
  concludes_check (run_requireIsa ext s) (concludes_check (run_fpPrepareInstr clear) tail)

variable {ext : Word isa} {body : IssM isa World Unit}

theorem concludes_rounding (clear : s.softfloatExceptionFlags = 0)
    (raises : ∃ w, body.run { s with softfloatRoundingMode := fpRm instr s } = (.ok (), w) ∧
      Raised s calls w) : Concludes s calls ((fpRounding instr ext body).run s) := by
  obtain ⟨w, ran, raised⟩ := raises
  obtain ⟨t, finished, accrued⟩ := accrued_finish raised
  refine concludes_framed ext clear (concludes_check (run_fpSetupRm instr s) ?_)
  exact .inl ⟨t, (Exec.run_bind_ok ran).trans finished, accrued⟩

theorem concludes_comparing (clear : s.softfloatExceptionFlags = 0)
    (raises : ∃ w, body.run s = (.ok (), w) ∧ Raised s calls w) :
    Concludes s calls ((fpComparing ext body).run s) := by
  obtain ⟨w, ran, raised⟩ := raises
  obtain ⟨t, updated, accrued⟩ := accrued_update raised
  refine concludes_framed ext clear ?_
  exact .inl ⟨t, (Exec.run_bind_ok ran).trans updated, accrued⟩

/-- An instruction that makes no calls. -/
theorem accrued_none {t : Iss isa World} (clear : s.softfloatExceptionFlags = 0)
    (flags : t.softfloatExceptionFlags = s.softfloatExceptionFlags)
    (fcsr : t.csrs.reg .fcsr = s.csrs.reg .fcsr) : Accrued s [] t := by
  refine ⟨flags.trans clear, ?_, by rw [fcsr]⟩
  rw [fcsr]
  exact BitVec.or_zero.symm

theorem concludes_moving (clear : s.softfloatExceptionFlags = 0)
    (moves : ∃ w, body.run s = (.ok (), w) ∧ w.softfloatExceptionFlags = s.softfloatExceptionFlags ∧
      w.csrs.reg .fcsr = s.csrs.reg .fcsr) : Concludes s [] ((fpMoving ext body).run s) := by
  obtain ⟨w, ran, flags, fcsr⟩ := moves
  refine concludes_framed ext clear (.inl ⟨_, Exec.run_bind_ok ran, ?_⟩)
  exact accrued_none clear flags fcsr

theorem concludes_inspect {value : IssM isa World (Word isa)} (clear : s.softfloatExceptionFlags = 0)
    (reads : ∃ x, value.run s = (.ok x, s)) : Concludes s [] ((fpInspect instr ext value).run s) := by
  obtain ⟨x, ran⟩ := reads
  refine concludes_framed ext clear (.inl ⟨_, Exec.run_bind_ok ran, ?_⟩)
  exact accrued_none clear rfl rfl

theorem concludes_onlyRv64 (finishes : Concludes s calls (body.run s)) :
    Concludes s calls ((onlyRv64 body).run s) := by
  cases isa with
  | rv32 => exact .inr rfl
  | rv64 => exact finishes

/-! ## Minimum and maximum -/

/-- The comparison of two operands. -/
def before (lt eq : Bool × BitVec 8) (negative : Bool) : IssM isa World Bool := do
  if ← softfloat lt then return true
  else return (← softfloat eq) && negative

theorem raised_before {lt eq : Bool × BitVec 8} {negative : Bool}
    (clear : s.softfloatExceptionFlags = 0) : ∃ first w, (before lt eq negative).run s = (.ok first, w) ∧
      Raised s (lt.2 :: if lt.1 then [] else [eq.2]) w := by
  obtain ⟨smaller, flags⟩ := lt
  have unfolded : (before (smaller, flags) eq negative).run s =
      (if smaller then pure true else do return (← softfloat eq) && negative : IssM isa World Bool).run
        { s with softfloatExceptionFlags := s.softfloatExceptionFlags ||| flags } := rfl
  rw [unfolded, clear]
  cases smaller with
  | true => exact ⟨true, _, rfl, rfl, rfl⟩
  | false => exact ⟨eq.1 && negative, _, rfl, rfl, rfl⟩

theorem concludes_select {first : IssM isa World Bool} {field : BitVec 32} {value : Bool → BitVec 64}
    (raises : ∃ first' w, first.run s = (.ok first', w) ∧ Raised s calls w) :
    Concludes s calls
      ((do let first' ← first; writeF64 field (value first'); fpFinishInstr : IssM isa World Unit).run s) := by
  obtain ⟨first', w, ran, raised⟩ := raises
  have written : Raised s calls (w.setFpReg (regIndex field) (value first')) :=
    ⟨raised.flags, raised.fcsr⟩
  obtain ⟨t, finished, accrued⟩ := accrued_finish written
  exact .inl ⟨t, (Exec.run_bind_ok ran).trans finished, accrued⟩

theorem concludes_f32Select {first : BitVec 32 → BitVec 32 → IssM isa World Bool}
    {calls : BitVec 32 → BitVec 32 → List (BitVec 8)} (clear : s.softfloatExceptionFlags = 0)
    (raises : ∀ a b, ∃ first' w, (first a b).run s = (.ok first', w) ∧ Raised s (calls a b) w) :
    Concludes s (calls (unboxF32 (s.fpRegs (regIndex instr.rs1))) (unboxF32 (s.fpRegs (regIndex instr.rs2))))
      ((f32Select instr first).run s) := by
  unfold f32Select readF32 writeF32
  refine concludes_framed _ clear ?_
  rw [Exec.run_read_bind, Exec.run_read_bind]
  exact concludes_select (raises _ _)

theorem concludes_f64Select {first : BitVec 64 → BitVec 64 → IssM isa World Bool}
    {calls : BitVec 64 → BitVec 64 → List (BitVec 8)} (clear : s.softfloatExceptionFlags = 0)
    (raises : ∀ a b, ∃ first' w, (first a b).run s = (.ok first', w) ∧ Raised s (calls a b) w) :
    Concludes s (calls (s.fpRegs (regIndex instr.rs1)) (s.fpRegs (regIndex instr.rs2)))
      ((f64Select instr first).run s) := by
  unfold f64Select readF64
  refine concludes_framed _ clear ?_
  rw [Exec.run_read_bind, Exec.run_read_bind]
  exact concludes_select (raises _ _)

end Frames

/-! ## The switch -/

section Switch

variable {s : Iss isa World} {instr : Instruction} {plat : Platform World} {op : Mapping}

theorem concludes_exec (clear : s.softfloatExceptionFlags = 0) (float : op.isFloat = true)
    (load : op.isFpLoad = false) (store : op.isFpStore = false) :
    Concludes s (softfloatCalls plat.softfloat instr s op) ((exec instr plat op).run s) := by
  cases op
  case fsgnjS | fsgnjnS | fsgnjxS | fsgnjD | fsgnjnD | fsgnjxD | fmvWX =>
    exact concludes_moving clear ⟨_, rfl, rfl, rfl⟩
  case fmvDX => exact concludes_onlyRv64 (concludes_moving clear ⟨_, rfl, rfl, rfl⟩)
  case fmvXW | fclassS | fclassD => exact concludes_inspect clear ⟨_, rfl⟩
  case fmvXD => exact concludes_onlyRv64 (concludes_inspect clear ⟨_, rfl⟩)
  case feqS | fltS | fleS | feqD | fltD | fleD =>
    exact concludes_comparing clear ⟨_, rfl, raised_one clear rfl rfl⟩
  case fminS => exact concludes_f32Select clear fun _ _ => raised_before clear
  case fmaxS =>
    exact @concludes_f32Select _ _ s instr _ (fun a b => f32BeforeCalls plat.softfloat b a) clear
      fun _ _ => raised_before clear
  case fminD => exact concludes_f64Select clear fun _ _ => raised_before clear
  case fmaxD =>
    exact @concludes_f64Select _ _ s instr _ (fun a b => f64BeforeCalls plat.softfloat b a) clear
      fun _ _ => raised_before clear
  case fcvtLS | fcvtLuS | fcvtSL | fcvtSLu | fcvtLD | fcvtLuD | fcvtDL | fcvtDLu =>
    exact concludes_onlyRv64 (concludes_rounding clear ⟨_, rfl, raised_one clear rfl rfl⟩)
  all_goals first
    | cases float; done
    | cases load; done
    | cases store; done
    | exact concludes_rounding clear ⟨_, rfl, raised_one clear rfl rfl⟩

end Switch

/-! ## Loads and stores of FP registers -/

/-- The flags of the library and `fcsr` stay. -/
def FlagsHeld (s : Iss isa World) (_ : Option Exc) (t : Iss isa World) : Prop :=
  t.softfloatExceptionFlags = s.softfloatExceptionFlags ∧ t.csrs.reg .fcsr = s.csrs.reg .fcsr

instance : Closed (@FlagsHeld isa World) where
  refl _ := ⟨rfl, rfl⟩
  trans first second := ⟨second.1.trans first.1, second.2.trans first.2⟩

instance : Notes (@FlagsHeld isa World) where
  trap _ _ _ _ := ⟨rfl, rfl⟩
  rethrow _ _ _ _ step := step
  abort _ _ _ := ⟨rfl, rfl⟩
  scratch _ _ _ _ := ⟨rfl, rfl⟩
  cycle := ⟨fun _ => ⟨rfl, rfl⟩⟩

instance : Lifts Answers (@FlagsHeld isa World) := ⟨fun _ _ _ _ => ⟨rfl, rfl⟩⟩

instance (plat : Platform World) : Loads plat (@FlagsHeld isa World) :=
  loads_of_lifts plat Answers FlagsHeld
    (sat_release plat Answers FlagsHeld fun _ _ _ => ⟨rfl, rfl⟩) fun _ _ => ⟨rfl, rfl⟩

instance (plat : Platform World) : Stores plat (@FlagsHeld isa World) FlagsHeld :=
  stores_of_lifts plat Answers FlagsHeld

instance (field : BitVec 32) (value : BitVec 64) : Sat (@FlagsHeld isa World) (writeF64 field value) :=
  .update fun _ => ⟨rfl, rfl⟩

theorem flagsHeld_fpMemory (instr : Instruction) (plat : Platform World) {op : Mapping}
    (memory : op.isFpLoad = true ∨ op.isFpStore = true) :
    Sat (@FlagsHeld isa World) (exec instr plat op) := by
  rcases memory with load | store
  · exact sat_fpLoad instr plat FlagsHeld load
  · exact sat_fpStore instr plat FlagsHeld store

/-! ## The step -/

/-- With no flags in the library there are none afterwards, and the assertion about them does
not fail. -/
def Flagless (s : Iss isa World) (o : Option Exc) (t : Iss isa World) : Prop :=
  s.softfloatExceptionFlags = 0 →
    t.softfloatExceptionFlags = 0 ∧ o ≠ some (.abort .softfloatFlags)

instance : Closed (@Flagless isa World) where
  refl _ clear := ⟨clear, nofun⟩
  trans first second clear := second (first clear).1

instance : Indifferent (@Flagless isa World) where
  trap _ _ _ _ clear := ⟨clear, nofun⟩
  rethrow _ _ _ _ step clear := ⟨(step clear).1, nofun⟩
  abort _ _ explained clear := ⟨clear, fun same => by
    cases same
    exact explained clear⟩
  scratch _ _ _ _ clear := ⟨clear, nofun⟩
  move _ _ clear := ⟨clear, nofun⟩
  cycle := ⟨fun _ clear => ⟨clear, nofun⟩⟩
  world _ _ clear := ⟨clear, nofun⟩
  stuck _ _ _ stopped clear := ⟨clear, fun same => by
    cases same
    rcases stopped with other | other <;> cases other⟩
  counter _ _ _ _ clear := ⟨clear, nofun⟩
  reservation _ _ _ clear := ⟨clear, nofun⟩
  mode _ _ _ clear := ⟨clear, nofun⟩
  csr _ _ _ _ clear := ⟨clear, nofun⟩
  status _ _ _ clear := ⟨clear, nofun⟩
  refused _ _ _ _ clear := ⟨clear, nofun⟩

instance : Checks (@Flagless isa World) where
  issue _ _ _ clear := ⟨clear, nofun⟩

instance : Writes (@Flagless isa World) where
  reg _ _ _ clear := ⟨clear, nofun⟩
  exit _ clear := ⟨clear, nofun⟩

instance (field : BitVec 32) (value : BitVec 64) : Sat (@Flagless isa World) (writeF64 field value) :=
  .update fun _ clear => ⟨clear, nofun⟩

section Step

variable {plat : Platform World} {s : Iss isa World}

theorem flagless_exec {instr : Instruction} {op : Mapping} : SatAt Flagless (exec instr plat op) s := by
  refine satAt_exec plat Flagless (fun csr => ?_) fun float => ?_
  · refine satAt_exec_csr Flagless (fun _ _ _ => .of_sat ?_) csr
    exact sat_setCsrValue (fun _ _ clear => ⟨clear, nofun⟩) _ _
  cases load : op.isFpLoad with
  | true => exact .of_sat (sat_fpLoad instr plat Flagless load)
  | false =>
    cases store : op.isFpStore with
    | true => exact .of_sat (sat_fpStore instr plat Flagless store)
    | false =>
      intro clear
      have concludes : Concludes _ _ ((exec instr plat op).run _) := concludes_exec clear float load store
      rcases concludes with ⟨t, ran, accrued⟩ | refused
      · rw [ran]
        exact ⟨accrued.clear, nofun⟩
      · rw [refused]
        exact ⟨clear, nofun⟩

theorem flagless_runStep : SatAt Flagless (runStep plat) s := by
  have performance := sat_performance plat (@Flagless isa World) (Locks.counter plat)
    fun _ _ clear => ⟨clear, nofun⟩
  have forget : ∀ {s e t}, @Flagless isa World s (some (.trap e)) t → Flagless s none t :=
    fun step clear => ⟨(step clear).1, nofun⟩
  refine (stepParts_of_modes plat Flagless performance forget).runStep ?_
  exact satAt_execStep inferInstance fun u _ _ => flagless_exec

/-- Of the step from `s`: the library has no flags when the instruction starts, the assertion
that it has none does not fail, an FP instruction moves all the flags that its calls raise to
`fcsr`, and one that traps raises none. -/
structure FlagsTracked (plat : Platform World) (s : Iss isa World) : Prop where
  start : ∀ u, (do fetch plat; decode : IssM isa World Unit).run (beforeExec plat s) = (.ok (), u) →
    u.softfloatExceptionFlags = 0
  asserted : ∀ e t, (runStep plat).run s = (.error e, t) → e ≠ .abort .softfloatFlags
  accrued : ∀ u, (do fetch plat; decode : IssM isa World Unit).run (beforeExec plat s) = (.ok (), u) →
    u.op.isFloat = true → ∀ t, (exec u.instr plat u.op).run u = (.ok (), t) →
    Accrued u (softfloatCalls plat.softfloat u.instr u u.op) t
  trapped : ∀ u, (do fetch plat; decode : IssM isa World Unit).run (beforeExec plat s) = (.ok (), u) →
    u.op.isFloat = true → ∀ e t, (exec u.instr plat u.op).run u = (.error (.trap e), t) → FlagsHeld u none t

theorem calls_fpMemory {instr : Instruction} {op : Mapping} (lib : SoftFloat)
    (memory : op.isFpLoad = true ∨ op.isFpStore = true) : softfloatCalls lib instr s op = [] := by
  cases op
  case flw | fsw | fld | fsd => rfl
  all_goals rcases memory with memory | memory <;> cases memory

/-- Flags of the library do not leak from one instruction into another. -/
theorem flagsTracked_of_run (reached : Reachable plat s) : FlagsTracked plat s := by
  have clear := unflagged_of_run reached
  have start : ∀ u, (do fetch plat; decode : IssM isa World Unit).run (beforeExec plat s) = (.ok (), u) →
      u.softfloatExceptionFlags = 0 := fun u prepared => flags_of_decoded clear prepared
  refine ⟨start, fun e t ran same => ?_, fun u prepared float t ran => ?_, fun u prepared float e t ran => ?_⟩
  · exact ((flagless_runStep.error ran) clear).2 (congrArg some same)
  · by_cases memory : u.op.isFpLoad = true ∨ u.op.isFpStore = true
    · have held := (flagsHeld_fpMemory u.instr plat memory).ok ran
      rw [calls_fpMemory _ memory]
      exact accrued_none (start u prepared) held.1 held.2
    · obtain ⟨load, store⟩ := not_or.mp memory
      rcases concludes_exec (start u prepared) float (by simpa using load) (by simpa using store) with
        ⟨t', ran', accrued⟩ | refused
      · cases ran.symm.trans ran'
        exact accrued
      · cases ran.symm.trans refused
  · by_cases memory : u.op.isFpLoad = true ∨ u.op.isFpStore = true
    · exact (flagsHeld_fpMemory u.instr plat memory).error ran
    · obtain ⟨load, store⟩ := not_or.mp memory
      rcases concludes_exec (start u prepared) float (by simpa using load) (by simpa using store) with
        ⟨t', ran', -⟩ | refused
      · cases ran.symm.trans ran'
      · cases ran.symm.trans refused
        exact ⟨rfl, rfl⟩

/-- `fadd.s f1, f0, f0` with the FP registers on: it gets to its end, and so do the flags. -/
theorem fadd_flagsTracked : ((runStep Flat.platform).run floated).1 = .ok () ∧
    FlagsTracked Flat.platform floated :=
  ⟨by decide, flagsTracked_of_run reachable_floated⟩

end Step

end RiscvVp.Iss
