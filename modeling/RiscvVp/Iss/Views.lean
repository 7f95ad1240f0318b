/-
# RiscvVp.Iss.Views -- the supervisor's and the user's views of the machine registers

`sstatus`, `sie` and `sip`, and `ustatus`, `uie` and `uip`, are not registers: they show some
of the bits of `mstatus`, `mie` and `mip`.  The specification says which; the source has its
own masks.  Writes through the views keep to the specification, and so does what four of them
show.  `sip` and `uip` are read under the mask of what can be written there, which leaves out
the timer and the external interrupts.
-/
import RiscvVp.Iss.CsrWrite
import RiscvVp.Iss.Run

namespace RiscvVp

set_option autoImplicit false

open Lib Transition

/-- The mask `get_csr_value` reads a register under. -/
def CsrAddr.readMask (isa : Isa) : CsrAddr → Word isa
  | .mstatus => Mask.mstatusRead isa
  | .sstatus => Mask.sstatusRead isa
  | .ustatus => Mask.ustatus isa
  | .mip => Mask.mipRead isa
  | .sip => Mask.sip isa
  | .uip => Mask.uip isa
  | .mie => Mask.mie isa
  | .sie => Mask.sie isa
  | .uie => Mask.uie isa
  | _ => -1

namespace Iss

variable {isa : Isa} {World : Type}

/-! ## The views of the specification -/

/-- An address of a lower level, the one of the machine register, that register, and the bits
that belong to the level. -/
structure View where
  view : CsrAddr
  machine : CsrAddr
  reg : Csr
  bits : List Nat

/-- `UIE`, `SIE`, `UPIE`, `SPIE`, `SPP`, `FS`, `XS`, `SUM`, `MXR`, with `SD` at the top and, in
64 bits, `UXL`. -/
def sstatusBits : Isa → List Nat
  | .rv32 => [0, 1, 4, 5, 8, 13, 14, 15, 16, 18, 19, 31]
  | .rv64 => [0, 1, 4, 5, 8, 13, 14, 15, 16, 18, 19, 32, 33, 63]

/-- Software, timer and external interrupts of user and supervisor mode. -/
def supervisorInterrupts : List Nat := [0, 1, 4, 5, 8, 9]

def userInterrupts : List Nat := [0, 4, 8]

def views (isa : Isa) : List View :=
  [⟨.sstatus, .mstatus, .mstatus, sstatusBits isa⟩, ⟨.ustatus, .mstatus, .mstatus, [0, 4]⟩,
    ⟨.sie, .mie, .mie, supervisorInterrupts⟩, ⟨.uie, .mie, .mie, userInterrupts⟩,
    ⟨.sip, .mip, .mip, supervisorInterrupts⟩, ⟨.uip, .mip, .mip, userInterrupts⟩]

section Law

variable (plat : Platform World) (s : Iss isa World) (v : View)

/-- The view shows the bits of its level, as the machine register shows them. -/
def Restricts : Prop :=
  ∃ x m, (getCsrValue plat v.view.addr).run s = (.ok x, s) ∧
    (getCsrValue plat v.machine.addr).run s = (.ok m, s) ∧
    ∀ i, x.getLsbD i = (m.getLsbD i && v.bits.contains i)

/-- A write through the view: it changes the bits of the view and nothing else, it can be read
back, and the machine register shows a difference in these bits only. -/
structure WritesThrough (value : Word isa) (t : Iss isa World) : Prop where
  writes : (setCsrValue v.view.addr value).run s = (.ok (), t)
  rest : t = { s with csrs := t.csrs }
  counters : t.csrs.counter = s.csrs.counter
  kept : ∀ c i, ¬ (c = v.reg ∧ v.bits.contains i = true) →
    (t.csrs.reg c).getLsbD i = (s.csrs.reg c).getLsbD i
  back : ∃ x, (getCsrValue plat v.view.addr).run t = (.ok x, t) ∧
    ∀ i, (v.view.writeMask isa).getLsbD i = true → x.getLsbD i = value.getLsbD i
  machine : ∃ m m', (getCsrValue plat v.machine.addr).run s = (.ok m, s) ∧
    (getCsrValue plat v.machine.addr).run t = (.ok m', t) ∧
    ∀ i, v.bits.contains i = false → m'.getLsbD i = m.getLsbD i

/-- All of it, for a state. -/
def ViewLaw : Prop :=
  ∀ v ∈ views isa, Restricts plat s v ∧ ∀ value, ∃ t, WritesThrough plat s v value t

end Law

/-! ## The masks of the source -/

/-- What the source does at a view: it reads and writes the machine register under masks, and
what it lets through in a write belongs to the level and can be read. -/
structure ViewMasks (isa : Isa) (plat : Platform World) (v : View) : Prop where
  read : ∀ s : Iss isa World, (getCsrValue plat v.view.addr).run s =
    (.ok (s.csrs.reg v.reg &&& v.view.readMask isa), s)
  write : ∀ (s : Iss isa World) value, (setCsrValue v.view.addr value).run s =
    (.ok (), s.setCsr v.reg (maskedWrite (s.csrs.reg v.reg) value (v.view.writeMask isa)))
  above : ∀ s : Iss isa World, (getCsrValue plat v.machine.addr).run s =
    (.ok (s.csrs.reg v.reg &&& v.machine.readMask isa), s)
  inside : ∀ i < isa.xlen, (v.view.writeMask isa).getLsbD i = true → v.bits.contains i = true
  visible : ∀ i < isa.xlen, (v.view.writeMask isa).getLsbD i = true →
    (v.view.readMask isa).getLsbD i = true

theorem viewMasks_of_mem (plat : Platform World) : ∀ v ∈ views isa, ViewMasks isa plat v := by
  simp only [views, List.forall_mem_cons]
  refine ⟨?_, ?_, ?_, ?_, ?_, ?_, List.forall_mem_nil _⟩ <;> cases isa <;>
    exact
      { read := fun _ => rfl
        write := fun _ _ => rfl
        above := fun _ => rfl
        inside := by decide
        visible := by decide }

section Masks

variable {plat : Platform World} {v : View}

theorem ViewMasks.writesThrough (masks : ViewMasks isa plat v) (s : Iss isa World) (value : Word isa) :
    WritesThrough plat s v value
      (s.setCsr v.reg (maskedWrite (s.csrs.reg v.reg) value (v.view.writeMask isa))) where
  writes := masks.write s value
  rest := rfl
  counters := by
    funext k
    cases k <;> rfl
  kept := by
    intro c i outside
    by_cases own : c = v.reg
    · subst own
      rw [setCsr_reg_self, getLsbD_maskedWrite, if_neg]
      intro writable
      exact outside ⟨rfl, masks.inside i (BitVec.lt_of_getLsbD writable) writable⟩
    · rw [setCsr_reg_of_ne s own]
  back := by
    refine ⟨_, masks.read _, fun i writable => ?_⟩
    rw [setCsr_reg_self, BitVec.getLsbD_and, getLsbD_maskedWrite, if_pos writable,
      masks.visible i (BitVec.lt_of_getLsbD writable) writable, Bool.and_true]
  machine := by
    refine ⟨_, _, masks.above s, masks.above _, fun i outside => ?_⟩
    have unwritten : ¬ (v.view.writeMask isa).getLsbD i = true := by
      intro writable
      rw [masks.inside i (BitVec.lt_of_getLsbD writable) writable] at outside
      cases outside
    rw [setCsr_reg_self, BitVec.getLsbD_and, BitVec.getLsbD_and, getLsbD_maskedWrite, if_neg unwritten]

/-- The source shows a bit where the specification does. -/
def View.Agrees (isa : Isa) (v : View) (i : Nat) : Prop :=
  (v.view.readMask isa).getLsbD i = ((v.machine.readMask isa).getLsbD i && v.bits.contains i)

instance (v : View) (i : Nat) : Decidable (v.Agrees isa i) := inferInstanceAs (Decidable (_ = _))

/-- Only a bit that is set can be shown wrongly. -/
theorem ViewMasks.restricts_iff (masks : ViewMasks isa plat v) (s : Iss isa World) :
    Restricts plat s v ↔ ∀ i < isa.xlen, (s.csrs.reg v.reg).getLsbD i = true → v.Agrees isa i := by
  constructor
  · rintro ⟨x, m, read, above, restricted⟩ i inside set
    cases (masks.read s).symm.trans read
    cases (masks.above s).symm.trans above
    have here := restricted i
    rwa [BitVec.getLsbD_and, BitVec.getLsbD_and, set, Bool.true_and, Bool.true_and] at here
  · intro agree
    refine ⟨_, _, masks.read s, masks.above s, fun i => ?_⟩
    rw [BitVec.getLsbD_and, BitVec.getLsbD_and]
    cases set : (s.csrs.reg v.reg).getLsbD i with
    | false => rfl
    | true =>
      rw [Bool.true_and, Bool.true_and]
      exact agree i (BitVec.lt_of_getLsbD set) set

end Masks

/-! ## What is hidden -/

/-- `UTIP`, `STIP`, `UEIP` and `SEIP`: the interrupts of a lower level that are not software's. -/
def deviceInterrupts : List Nat := [4, 5, 8, 9]

/-- A view of `mip` disagrees at these bits only, and the supervisor's at all of them. -/
theorem agrees_unless_device : ∀ v ∈ views isa, ∀ i < isa.xlen,
    ¬ (v.reg = .mip ∧ i ∈ deviceInterrupts) → v.Agrees isa i := by
  cases isa <;> decide

theorem not_agrees_device : ∀ i ∈ deviceInterrupts,
    ¬ View.Agrees isa ⟨.sip, .mip, .mip, supervisorInterrupts⟩ i := by
  cases isa <;> decide

/-- The views keep to the specification exactly while no timer or external interrupt of a lower
level is pending. -/
theorem viewLaw_iff (plat : Platform World) (s : Iss isa World) :
    ViewLaw plat s ↔ ∀ i ∈ deviceInterrupts, (s.csrs.reg .mip).getLsbD i = false := by
  constructor
  · intro law i device
    have sip : (⟨.sip, .mip, .mip, supervisorInterrupts⟩ : View) ∈ views isa := by
      simp only [views, List.mem_cons, true_or, or_true]
    rw [Bool.eq_false_iff]
    intro pending
    have shown := ((viewMasks_of_mem plat _ sip).restricts_iff s).mp (law _ sip).1
    exact not_agrees_device i device (shown i (BitVec.lt_of_getLsbD pending) pending)
  · intro quiet v view
    have masks := viewMasks_of_mem plat v view
    refine ⟨(masks.restricts_iff s).mpr fun i inside set => ?_, fun value => ⟨_, masks.writesThrough s value⟩⟩
    refine agrees_unless_device v view i inside ?_
    rintro ⟨mip, device⟩
    rw [mip, quiet i device] at set
    cases set

/-- The supervisor's external line is up: `mip` shows it, and `sip` shows nothing. -/
def signalled : Iss .rv64 Flat :=
  (everywhere 0x13).setCsr .mip (IrqEvent.apply (.triggerExternal supervisorMode) 0)

theorem seip_not_viewLaw : ¬ ViewLaw Flat.platform signalled := by
  intro law
  have shown : Restricts Flat.platform signalled ⟨.sip, .mip, .mip, supervisorInterrupts⟩ :=
    (law _ (by simp only [views, List.mem_cons, true_or, or_true])).1
  obtain ⟨x, m, sip, mip, restricted⟩ := shown
  have hidden : (getCsrValue Flat.platform CsrAddr.sip.addr).run signalled = (.ok 0#64, signalled) := rfl
  have seen : (getCsrValue Flat.platform CsrAddr.mip.addr).run signalled = (.ok 0x200#64, signalled) := rfl
  cases hidden.symm.trans sip
  cases seen.symm.trans mip
  exact absurd (restricted 9) (by decide)

end Iss

end RiscvVp
