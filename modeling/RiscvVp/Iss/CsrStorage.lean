/-
# RiscvVp.Iss.CsrStorage -- which addresses share a register

Some addresses are views of one register: the status and interrupt registers of the three
levels, the parts of `fcsr`, a counter and its shadow.  Every other pair is stored apart, so
that a write to one address cannot be seen through the other, with one exception: the RV64
table has two PMP configuration registers where it maps four.

The argument is by cells.  A write changes the cell of its address, a read depends on the
cell of its own, and two addresses with one cell are views of one register or the exception.
-/
import RiscvVp.Iss.CsrWrite
import RiscvVp.Iss.Run

namespace RiscvVp

set_option autoImplicit false

open Lib Transition

namespace CsrAddr

/-- The register that an address is a view of, under its widest name. -/
def register : CsrAddr → CsrAddr
  | .sstatus | .ustatus => .mstatus
  | .sie | .uie => .mie
  | .sip | .uip => .mip
  | .fflags | .frm => .fcsr
  | .cycle => .mcycle
  | .cycleh => .mcycleh
  | .time => .mtime
  | .timeh => .mtimeh
  | .instret => .minstret
  | .instreth => .minstreth
  | a => a

/-- The address that stands for a cell. -/
def ofCell : Cell → CsrAddr
  | .counter .cycle => .mcycle
  | .counter .time => .mtime
  | .counter .instret => .minstret
  | .counterHigh .cycle => .mcycleh
  | .counterHigh .time => .mtimeh
  | .counterHigh .instret => .minstreth
  | .reg c => match c with
    | .mvendorid => .mvendorid | .marchid => .marchid | .mimpid => .mimpid | .mhartid => .mhartid
    | .mstatus => .mstatus | .misa => .misa | .medeleg => .medeleg | .mideleg => .mideleg
    | .mie => .mie | .mtvec => .mtvec | .mcounteren => .mcounteren
    | .mcountinhibit => .mcountinhibit | .mscratch => .mscratch | .mepc => .mepc
    | .mcause => .mcause | .mtval => .mtval | .mip => .mip
    | .pmpaddr i => .pmpaddr i | .pmpcfg i => .pmpcfg i
    | .sedeleg => .sedeleg | .sideleg => .sideleg | .stvec => .stvec
    | .scounteren => .scounteren | .sscratch => .sscratch | .sepc => .sepc
    | .scause => .scause | .stval => .stval | .satp => .satp
    | .utvec => .utvec | .uscratch => .uscratch | .uepc => .uepc | .ucause => .ucause
    | .utval => .utval | .fcsr => .fcsr

/-- The last two PMP configuration registers, as the RV64 table has them. -/
def overrun : CsrAddr → Option CsrAddr
  | .pmpcfg 2 => some .sedeleg
  | .pmpcfg 3 => some .sideleg
  | _ => none

/-- One of the two is past the end of its array, where the other is stored. -/
def Overlap (isa : Isa) (a b : CsrAddr) : Prop :=
  isa = .rv64 ∧ (a.overrun = some b ∨ b.overrun = some a)

/-- An address with a cell is a view of the register that the cell is, or past the end of
its array. -/
theorem register_of_cell {isa : Isa} {a : CsrAddr} {cell : Cell} (own : a.cell isa = some cell) :
    a.register = ofCell cell ∨ isa = .rv64 ∧ a.overrun = some (ofCell cell) := by
  cases a
  case pmpcfg i =>
    unfold CsrAddr.cell registerMapping at own
    dsimp only at own
    split at own
    case isTrue past =>
      obtain ⟨rfl, rfl⟩ := past
      cases own
      exact .inr ⟨rfl, rfl⟩
    split at own
    case isTrue past =>
      obtain ⟨rfl, rfl⟩ := past
      cases own
      exact .inr ⟨rfl, rfl⟩
    cases own
    exact .inl rfl
  all_goals
    unfold CsrAddr.cell registerMapping at own
    cases isa <;> cases own <;> exact .inl rfl

/-- The registers that are overrun have one address, and are inside their own cell. -/
theorem register_of_overrun {a b c : CsrAddr} (past : a.overrun = some c) (same : b.register = c) :
    b = c := by
  unfold overrun at past
  split at past
  · cases past
    cases b <;> first | rfl | cases same
  · cases past
    cases b <;> first | rfl | cases same
  · cases past

theorem overrun_injective {a b c : CsrAddr} (first : a.overrun = some c)
    (second : b.overrun = some c) : a = b := by
  unfold overrun at first second
  split at first
  · split at second
    · rfl
    · cases first
      cases second
    · cases second
  · split at second
    · cases first
      cases second
    · rfl
    · cases second
  · cases first

/-- Addresses with one cell. -/
theorem same_cell {isa : Isa} {a b : CsrAddr} {cell : Cell} (first : a.cell isa = some cell)
    (second : b.cell isa = some cell) : a.register = b.register ∨ Overlap isa a b := by
  rcases register_of_cell first with here | ⟨core, past⟩
  · rcases register_of_cell second with there | ⟨core, past'⟩
    · exact .inl (here.trans there.symm)
    · exact .inr ⟨core, .inr (past'.trans (congrArg some (register_of_overrun past' here).symm))⟩
  · rcases register_of_cell second with there | ⟨-, past'⟩
    · exact .inr ⟨core, .inl (past.trans (congrArg some (register_of_overrun past there).symm))⟩
    · exact .inl (congrArg register (overrun_injective past past'))

theorem counterHigh_rv32 {isa : Isa} {a : CsrAddr} {k : Counter}
    (own : a.cell isa = some (.counterHigh k)) : isa = .rv32 := by
  cases isa with
  | rv32 => rfl
  | rv64 =>
    rcases register_of_cell own with same | ⟨-, past⟩
    · cases a <;> cases k <;> cases same <;> cases own
    · unfold overrun at past
      split at past <;> cases k <;> cases past

end CsrAddr

namespace CsrTable

variable (csrs : CsrTable .rv32) (k : Counter) (value : Word .rv32)

/-- The halves of a counter are written apart. -/
theorem low_writeHigh :
    (csrs.writeCell (.counterHigh k) value).readCell (.counter k) = csrs.readCell (.counter k) := by
  have stored : (csrs.writeCell (.counterHigh k) value).counter k =
      maskedWrite (csrs.counter k) (value.setWidth 64 <<< 32) (0xFFFFFFFF#64 <<< 32) := by
    cases k <;> rfl
  have masked : ∀ i < 32, (0xFFFFFFFF#64 <<< 32).getLsbD i = false := by decide
  show ((csrs.writeCell (.counterHigh k) value).counter k).setWidth 32 =
    (csrs.counter k).setWidth 32
  apply BitVec.eq_of_getLsbD_eq
  intro i low
  rw [stored, BitVec.getLsbD_setWidth, BitVec.getLsbD_setWidth, getLsbD_maskedWrite,
    masked i low]
  rfl

theorem high_writeLow :
    (csrs.writeCell (.counter k) value).readCell (.counterHigh k) =
      csrs.readCell (.counterHigh k) := by
  have stored : (csrs.writeCell (.counter k) value).counter k =
      maskedWrite (csrs.counter k) (value.setWidth 64) ((BitVec.allOnes 32).setWidth 64) := by
    cases k <;> rfl
  have masked : ∀ i < 32, ((BitVec.allOnes 32).setWidth 64).getLsbD (32 + i) = false := by decide
  show ((csrs.writeCell (.counter k) value).counter k >>> 32).setWidth 32 =
    (csrs.counter k >>> 32).setWidth 32
  apply BitVec.eq_of_getLsbD_eq
  intro i low
  rw [stored, BitVec.getLsbD_setWidth, BitVec.getLsbD_setWidth, BitVec.getLsbD_ushiftRight,
    BitVec.getLsbD_ushiftRight, getLsbD_maskedWrite, masked i low]
  rfl

end CsrTable

namespace Iss

variable {isa : Isa} {World : Type}

/-! ## A write changes its own cell -/

/-- The counters are written as the register map has them. -/
theorem setNamedCsr_counter {a : CsrAddr} {k : Counter}
    (own : a.cell isa = some (.counter k) ∨ a.cell isa = some (.counterHigh k)) (value : Word isa) :
    (setNamedCsr value a : IssM isa World Unit) = defaultWrite a value ∧
      registerMapping isa a = a.cell isa := by
  cases a
  case pmpcfg => exact ⟨rfl, rfl⟩
  all_goals first
    | exact ⟨rfl, rfl⟩
    | (rcases own with own | own <;> cases own)

theorem readCell_setNamedCsr {a b : CsrAddr} {cell : Cell} {value : Word isa} {s t : Iss isa World}
    (ran : (setNamedCsr value a).run s = (.ok (), t)) (other : a.cell isa ≠ some cell)
    (real : b.cell isa = some cell) : t.csrs.readCell cell = s.csrs.readCell cell := by
  have written := (written_setNamedCsr a value).ok ran
  have through : ∀ {k cell'}, a.cell isa = some cell' →
      (cell' = .counter k ∨ cell' = .counterHigh k) →
      t.csrs = s.csrs.writeCell cell' value := by
    intro k cell' own counter
    have both : a.cell isa = some (.counter k) ∨ a.cell isa = some (.counterHigh k) := by
      rcases counter with rfl | rfl
      · exact .inl own
      · exact .inr own
    obtain ⟨plain, mapped⟩ := @setNamedCsr_counter isa World a k both value
    rw [plain] at ran
    unfold defaultWrite at ran
    rw [mapped, own] at ran
    cases ran
    rfl
  cases cell with
  | reg c =>
    apply BitVec.eq_of_getLsbD_eq
    intro i _
    exact written.kept c i fun both => other both.1
  | counter k =>
    by_cases high : a.cell isa = some (.counterHigh k)
    · obtain rfl := CsrAddr.counterHigh_rv32 high
      rw [through high (.inr rfl)]
      exact CsrTable.low_writeHigh s.csrs k value
    · have same := written.counter k other high
      show (t.csrs.counter k).setWidth isa.xlen = (s.csrs.counter k).setWidth isa.xlen
      rw [same]
  | counterHigh k =>
    by_cases low : a.cell isa = some (.counter k)
    · obtain rfl := CsrAddr.counterHigh_rv32 real
      rw [through low (.inl rfl)]
      exact CsrTable.high_writeLow s.csrs k value
    · have same := written.counter k low other
      show (t.csrs.counter k >>> 32).setWidth isa.xlen = (s.csrs.counter k >>> 32).setWidth isa.xlen
      rw [same]

/-! ## A read depends on its own cell -/

theorem getNamedCsr_congr {plat : Platform World} {b : CsrAddr} {s t u v : Iss isa World}
    {old new : Word isa} (rest : t = { s with csrs := t.csrs })
    (same : ∀ cell, b.cell isa = some cell → t.csrs.readCell cell = s.csrs.readCell cell)
    (before : (getNamedCsr plat b).run s = (.ok old, u))
    (after : (getNamedCsr plat b).run t = (.ok new, v)) : new = old := by
  have masked : ∀ {c : Csr} {mask : Word isa}, b.cell isa = some (.reg c) →
      (readMasked c mask).run s = (.ok old, u) → (readMasked c mask).run t = (.ok new, v) →
      new = old := by
    intro c mask own before after
    cases before
    cases after
    exact congrArg (· &&& mask) (same _ own)
  have field : ∀ {len : Nat} {f : Field len}, b.cell isa = some (.reg .fcsr) →
      (do return (← readField .fcsr f).setWidth isa.xlen : IssM isa World (Word isa)).run s =
        (.ok old, u) →
      (do return (← readField .fcsr f).setWidth isa.xlen : IssM isa World (Word isa)).run t =
        (.ok new, v) → new = old := by
    intro len f own before after
    cases before
    cases after
    exact congrArg (fun x : Word isa => (f.get x).setWidth isa.xlen) (same _ own)
  have plain : registerMapping isa b = b.cell isa →
      (defaultRead b).run s = (.ok old, u) → (defaultRead b).run t = (.ok new, v) → new = old := by
    intro own before after
    unfold defaultRead at before after
    cases mapped : registerMapping isa b with
    | none =>
      rw [mapped] at before
      cases before
    | some cell =>
      rw [mapped] at before after
      cases before
      cases after
      exact same cell (own.symm.trans mapped)
  have world : t.world = s.world := by rw [rest]
  have cycles : t.cycleCounter = s.cycleCounter := by rw [rest]
  cases b
  case mstatus | sstatus | ustatus | mip | sip | uip | mie | sie | uie | fcsr =>
    exact masked rfl before after
  case fflags | frm => exact field rfl before after
  case time | mtime =>
    cases before
    cases after
    show (plat.updateAndGetMtime t.world).1.setWidth isa.xlen =
      (plat.updateAndGetMtime s.world).1.setWidth isa.xlen
    rw [world]
  case timeh | mtimeh =>
    cases isa <;> cases before
    cases after
    show ((plat.updateAndGetMtime t.world).1 >>> 32).setWidth 32 =
      ((plat.updateAndGetMtime s.world).1 >>> 32).setWidth 32
    rw [world]
  case mcycle =>
    cases before
    cases after
    show (BitVec.ofNat 64 t.cycleCounter).setWidth isa.xlen =
      (BitVec.ofNat 64 s.cycleCounter).setWidth isa.xlen
    rw [cycles]
  case mcycleh =>
    cases isa <;> cases before
    cases after
    show (BitVec.ofNat 64 t.cycleCounter >>> 32).setWidth 32 =
      (BitVec.ofNat 64 s.cycleCounter >>> 32).setWidth 32
    rw [cycles]
  case minstret =>
    cases before
    cases after
    exact same _ rfl
  case minstreth =>
    cases isa <;> cases before
    cases after
    exact same _ rfl
  case hpmcounter | mhpmcounter | mhpmevent =>
    cases before
    cases after
    rfl
  case hpmcounterh | mhpmcounterh | tselect | tdata1 | tdata2 | tdata3 | dcsr | dpc | dscratch0 |
      dscratch1 =>
    cases isa <;> cases before
    cases after
    rfl
  case satp =>
    unfold getNamedCsr at before after
    dsimp only at before after
    rw [run_readField_bind] at before after
    split at before
    · cases before
    split at after
    · cases after
    exact plain rfl before after
  all_goals exact plain rfl before after

/-! ## Pairs of addresses -/

/-- Two addresses that are views of one register. -/
def Views (x y : BitVec 12) : Prop :=
  ∃ a b, CsrAddr.named x = some a ∧ CsrAddr.named y = some b ∧ a.register = b.register

/-- No write to `x` changes what a read of `y` returns, if both reads are permitted. -/
def Unseen (isa : Isa) (x y : BitVec 12) : Prop :=
  ∀ (World : Type) (plat : Platform World) (s t u v : Iss isa World) (value old new : Word isa),
    (setCsrValue x value).run s = (.ok (), t) → (getCsrValue plat y).run s = (.ok old, u) →
      (getCsrValue plat y).run t = (.ok new, v) → new = old

/-- The map gives the two addresses different cells. -/
def CellsApart (isa : Isa) (x y : BitVec 12) : Prop :=
  ∀ a b cell, CsrAddr.named x = some a → CsrAddr.named y = some b →
    registerMapping isa a = some cell → registerMapping isa b ≠ some cell

/-- The addresses that the RV64 table has no room for, each with the register that is there. -/
def Overlapping (isa : Isa) (x y : BitVec 12) : Prop :=
  isa = .rv64 ∧ (x, y) ∈ [(0x3A2#12, 0x102#12), (0x102#12, 0x3A2#12), (0x3A3#12, 0x103#12),
    (0x103#12, 0x3A3#12)]

theorem overlapping_of_overlap {x y : BitVec 12} {a b : CsrAddr}
    (first : CsrAddr.named x = some a) (second : CsrAddr.named y = some b)
    (overlap : CsrAddr.Overlap isa a b) : Overlapping isa x y := by
  have here := CsrAddr.addr_of_named first
  have there := CsrAddr.addr_of_named second
  obtain ⟨core, past | past⟩ := overlap
  · refine ⟨core, ?_⟩
    unfold CsrAddr.overrun at past
    split at past
    · cases past
      subst here there
      decide
    · cases past
      subst here there
      decide
    · cases past
  · refine ⟨core, ?_⟩
    unfold CsrAddr.overrun at past
    split at past
    · cases past
      subst here there
      decide
    · cases past
      subst here there
      decide
    · cases past

theorem unseen_of_apart {x y : BitVec 12} (apart : ¬ Views x y) (fits : ¬ Overlapping isa x y) :
    Unseen isa x y := by
  intro World plat s t u v value old new wrote before after
  unfold setCsrValue at wrote
  cases first : CsrAddr.named x with
  | none =>
    rw [first] at wrote
    cases wrote
  | some a =>
    rw [first] at wrote
    cases second : CsrAddr.named y with
    | none =>
      unfold getCsrValue at before
      rw [second] at before
      obtain ⟨_, w, -, illegal⟩ := Exec.run_bind_eq_ok.mp before
      cases illegal
    | some b =>
      have written := (written_setNamedCsr a value).ok wrote
      refine getNamedCsr_congr written.rest (fun cell own => ?_) (getCsrValue_named second before)
        (getCsrValue_named second after)
      refine readCell_setNamedCsr wrote (fun shared => ?_) own
      rcases CsrAddr.same_cell shared own with view | overlap
      · exact apart ⟨a, b, first, second, view⟩
      · exact fits (overlapping_of_overlap first second overlap)

theorem cellsApart_of_apart {x y : BitVec 12} (apart : ¬ Views x y) (fits : ¬ Overlapping isa x y) :
    CellsApart isa x y := by
  intro a b cell first second mapped shared
  have own : ∀ {a : CsrAddr}, registerMapping isa a = some cell → a.cell isa = some cell := by
    intro a mapped
    cases a
    case sstatus | ustatus | sie | uie | sip | uip | fflags | frm => cases mapped
    all_goals exact mapped
  rcases CsrAddr.same_cell (own mapped) (own shared) with view | overlap
  · exact apart ⟨a, b, first, second, view⟩
  · exact fits (overlapping_of_overlap first second overlap)

/-- What an overlapping pair is: two registers, one cell, and a write that is seen. -/
theorem overlapping_breaks {x y : BitVec 12} (overlapping : Overlapping .rv64 x y) :
    ¬ Views x y ∧ ¬ CellsApart .rv64 x y ∧ ¬ Unseen .rv64 x y := by
  have pair : ∀ {x y : BitVec 12} {a b : CsrAddr} {cell : Cell}, CsrAddr.named x = some a →
      CsrAddr.named y = some b → a.register ≠ b.register →
      registerMapping .rv64 a = some cell → registerMapping .rv64 b = some cell →
      ((setCsrValue x 1).run (everywhere 0x13)).1 = .ok () →
      ((getCsrValue Flat.platform y).run (everywhere 0x13)).1 = .ok 0 →
      ((getCsrValue Flat.platform y).run ((setCsrValue x 1).run (everywhere 0x13)).2).1 = .ok 1 →
      ¬ Views x y ∧ ¬ CellsApart .rv64 x y ∧ ¬ Unseen .rv64 x y := by
    intro x y a b cell first second distinct here there wrote before after
    refine ⟨?_, fun apart => apart a b cell first second here there, fun unseen => ?_⟩
    · rintro ⟨a', b', first', second', same⟩
      cases first.symm.trans first'
      cases second.symm.trans second'
      exact distinct same
    · have same := unseen Flat Flat.platform _ _ _ _ 1 0 1 (Prod.ext wrote rfl) (Prod.ext before rfl)
        (Prod.ext after rfl)
      exact absurd same (by decide)
  obtain ⟨-, among⟩ := overlapping
  simp only [List.mem_cons, Prod.mk.injEq, List.not_mem_nil, or_false] at among
  rcases among with ⟨rfl, rfl⟩ | ⟨rfl, rfl⟩ | ⟨rfl, rfl⟩ | ⟨rfl, rfl⟩
  · exact pair (a := .pmpcfg 2) (b := .sedeleg) (by decide) (by decide) (by decide) rfl rfl
      (by decide) (by decide) (by decide)
  · exact pair (a := .sedeleg) (b := .pmpcfg 2) (by decide) (by decide) (by decide) rfl rfl
      (by decide) (by decide) (by decide)
  · exact pair (a := .pmpcfg 3) (b := .sideleg) (by decide) (by decide) (by decide) rfl rfl
      (by decide) (by decide) (by decide)
  · exact pair (a := .sideleg) (b := .pmpcfg 3) (by decide) (by decide) (by decide) rfl rfl
      (by decide) (by decide) (by decide)

/-- Storage is separate, but for the two registers that the RV64 table has no room for. -/
theorem storage_separate_iff (isa : Isa) (x y : BitVec 12) :
    (Views x y ∨ Unseen isa x y ↔ ¬ Overlapping isa x y) ∧
      (Views x y ∨ CellsApart isa x y ↔ ¬ Overlapping isa x y) := by
  have breaks : Overlapping isa x y → ¬ Views x y ∧ ¬ CellsApart isa x y ∧ ¬ Unseen isa x y := by
    intro overlapping
    obtain rfl := overlapping.1
    exact overlapping_breaks overlapping
  refine ⟨⟨?_, fun fits => ?_⟩, ⟨?_, fun fits => ?_⟩⟩
  · rintro (view | unseen) overlapping
    · exact (breaks overlapping).1 view
    · exact (breaks overlapping).2.2 unseen
  · exact or_iff_not_imp_left.mpr fun apart => unseen_of_apart apart fits
  · rintro (view | cells) overlapping
    · exact (breaks overlapping).1 view
    · exact (breaks overlapping).2.1 cells
  · exact or_iff_not_imp_left.mpr fun apart => cellsApart_of_apart apart fits

/-- `pmpcfg2` and `sedeleg` of the RV64 core. -/
theorem pmpcfg2_is_sedeleg : ¬ (Views 0x3A2 0x102 ∨ Unseen .rv64 0x3A2 0x102) := by
  obtain ⟨views, -, unseen⟩ := @overlapping_breaks 0x3A2 0x102 ⟨rfl, by decide⟩
  rintro (view | separate)
  · exact views view
  · exact unseen separate

end Iss

end RiscvVp
